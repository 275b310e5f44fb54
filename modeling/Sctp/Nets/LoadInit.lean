import Sctp.Nets.Model
import Sctp.Auth.Model

/-! `sctp_load_addresses_from_init`: the addresses and the features that an INIT or INIT-ACK announces. -/
namespace Sctp.Nets

open Asconf (Addr)
open Auth
open Tlv (Param)

def forwardCumTsn : BitVec 8 := 0xc0
def packetDropped : BitVec 8 := 0x81
def nrSelectiveAck : BitVec 8 := 0x10
def streamReset : BitVec 8 := 0x82
def ndataChunk : BitVec 8 := 0x11

/-- Another association that has an address: whether it is in `SCTP_STATE_COOKIE_WAIT` and whether its endpoint
has `SCTP_PCB_FLAGS_USE_NDATA` on. -/
structure Other where
  id : ℕ
  cookieWait : Bool
  useNdata : Bool
deriving DecidableEq, Repr

/-- A call: the packet, where the parameters are in it, the source or alternate address, and what the function
reads besides. -/
structure LoadCall where
  p : Bytes
  offset : ℕ
  limit : ℕ
  src : Addr
  /-- What stands behind the bytes fetched of the parameter at an offset. -/
  behind : ℕ → ℕ → BitVec 8
  /-- `peer_supports_asconf_ack`, which is not initialised. -/
  asconfAckGarbage : Bool
  ipv4AddrLegal : Bool
  ipv6AddrLegal : Bool
  useNdata : Bool
  freed : Bool
  /-- The look-up finds the association itself by an address of it. -/
  found : Addr → Bool
  others : Addr → Option Other
  add : Addr → AddEnv
  reachable : Addr → Bool
  keyAlloc : Bool

@[ext] structure Features where
  ecn : Bool
  prsctp : Bool
  auth : Bool
  asconf : Bool
  reconfig : Bool
  nrsack : Bool
  pktdrop : Bool
  ndata : Bool
deriving DecidableEq, Repr

namespace LoadCall

variable (c : LoadCall)

def legal : Addr → Bool
  | .v4 _ => c.ipv4AddrLegal
  | .v6 _ => c.ipv6AddrLegal

/-- A byte of a parameter of which some are fetched. -/
def view (o fetched i : ℕ) : BitVec 8 := if i < fetched then c.p.getD (o + i) 0 else c.behind o i

def v4At (o : ℕ) : BitVec 32 := BitVec.ofNat 32 (c.p.u32 o)

def v6At (o : ℕ) : BitVec 128 :=
  BitVec.ofNat 32 (c.p.u32 o) ++ BitVec.ofNat 32 (c.p.u32 (o + 4)) ++ BitVec.ofNat 32 (c.p.u32 (o + 8)) ++
    BitVec.ofNat 32 (c.p.u32 (o + 12))

end LoadCall

/-- Addresses that are not skipped: IPv4 addresses but multicast, broadcast and the address of zeros, IPv6
addresses but multicast and link local. -/
def unicast : Addr → Bool
  | .v4 a => !(Addr.v4 a).isBad && a != 0
  | .v6 a => !(Addr.v6 a).isBad && a.extractLsb' 118 10 != 0x3fa

inductive Sa where
  | src
  | sin
  | sin6
deriving DecidableEq, Repr

/-- `sin`, `sin6`, and which of them `sa` points to. -/
structure Vars where
  sin : BitVec 32
  sin6 : BitVec 128
  sa : Sa
deriving DecidableEq, Repr

namespace Vars

/-- What `sa` points to. -/
def value (c : LoadCall) (v : Vars) : Addr :=
  match v.sa with
  | .src => c.src
  | .sin => .v4 v.sin
  | .sin6 => .v6 v.sin6

/-- A listed address is copied, and `sa` points to the copy unless the address is skipped. -/
def list (v : Vars) : Addr → Vars
  | .v4 a => if unicast (.v4 a) then { v with sin := a, sa := .sin } else { v with sin := a }
  | .v6 a => if unicast (.v6 a) then { v with sin6 := a, sa := .sin6 } else { v with sin6 := a }

/-- The address of a SET-PRIMARY parameter is copied as well. -/
def name (v : Vars) : Addr → Vars
  | .v4 a => { v with sin := a }
  | .v6 a => { v with sin6 := a }

end Vars

/-- The variables of the function, what it changes, and for each SET-PRIMARY parameter the address in it and
that of the destination selected. -/
structure Load where
  dests : Dests
  others : Addr → Option Other
  vars : Vars
  /-- `SCTP_PCB_FLAGS_USE_NDATA` of what `inp` points to. -/
  inpNdata : Bool
  ecn : Bool
  prsctp : Bool
  auth : Bool
  asconf : Bool
  asconfAck : Bool
  reconfig : Bool
  nrsack : Bool
  pktdrop : Bool
  ndata : Bool
  sawAsconf : Bool
  sawAsconfAck : Bool
  gotRandom : Bool
  gotHmacs : Bool
  gotChklist : Bool
  selected : List (Addr × Option Addr)

/-- What `sctp_findassociation_ep_addr` comes back with. -/
inductive Lookup where
  | none
  | self (n : Dest)
  | other (o : Other)

namespace Load

variable (c : LoadCall)

/-- `sctp_findassociation_ep_addr` for an address. -/
def lookup (s : Load) (a : Addr) : Lookup :=
  match s.others a with
  | some o => .other o
  | none =>
    match if c.found a then s.dests.findnet a else none with
    | some n => .self n
    | none => .none

def clearNotInAssoc (d : Dests) (n : Dest) : Dests :=
  d.update n.ptr fun n => { n with notInAssoc := false }

def addItNow (s : Load) (a : Addr) (code : ℤ) : Turn Load :=
  match s.dests.addRemoteAddr (c.add a) a with
  | none => .ret code
  | some d => .go { s with dests := d }

/-- A listed address is looked up; the last two arguments are what a failed addition and an address of another
association return. -/
def takeAddr (s : Load) (a : Addr) (codeAdd codeOther : ℤ) : Turn Load :=
  match s.lookup c a with
  | .none => { s with inpNdata := c.useNdata }.addItNow c a codeAdd
  | .self n => .go { s with inpNdata := c.useNdata, dests := clearNotInAssoc s.dests n }
  | .other o =>
    if o.cookieWait then
      { s with
        inpNdata := o.useNdata
        others := fun b => (s.others b).filter fun o' => o'.id ≠ o.id }.addItNow c a codeAdd
    else .ret codeOther

/-- `SCTP_IPV4_ADDRESS` -/
def ipv4Param (x : Param) (s : Load) : Turn Load :=
  if !c.ipv4AddrLegal then .go s
  else if x.plen ≠ 8 ∨ (c.p.piece x.offset 8).isNone then .ret (-5)
  else
    let a := Addr.v4 (c.v4At (x.offset + 4))
    let s := { s with vars := s.vars.list a }
    if unicast a then s.takeAddr c a (-8) (-13) else .go s

/-- `SCTP_IPV6_ADDRESS` -/
def ipv6Param (x : Param) (s : Load) : Turn Load :=
  if !c.ipv6AddrLegal then .go s
  else if x.plen ≠ 20 ∨ (c.p.piece x.offset 20).isNone then .ret (-14)
  else
    let a := Addr.v6 (c.v6At (x.offset + 4))
    let s := { s with vars := s.vars.list a }
    if unicast a then s.takeAddr c a (-17) (-22) else .go s

/-- The address in a SET-PRIMARY parameter of the right size, `lsa`. -/
def lsa (x : Param) : Option Addr :=
  let lptype := (c.view x.offset (min x.plen 28) 8).toNat * 256 + (c.view x.offset (min x.plen 28) 9).toNat
  if lptype = ipv4Address ∧ x.plen = 16 then some (.v4 (c.v4At (x.offset + 12)))
  else if lptype = ipv6Address ∧ x.plen = 28 then some (.v6 (c.v6At (x.offset + 12)))
  else none

/-- `SCTP_SET_PRIM_ADDR`: the address is copied, but the primary destination is asked for by `sa`. -/
def setPrimParam (asconfSupported : Bool) (x : Param) (s : Load) : Turn Load :=
  if !asconfSupported then .ret (-100)
  else if 28 < x.plen then .ret (-23)
  else if (c.p.piece x.offset x.plen).isNone then .ret (-24)
  else
    match lsa c x with
    | none => .go s
    | some a =>
      let sa := (s.vars.name a).value c
      .go { s with
        vars := s.vars.name a
        dests := (s.dests.setPrimaryAddr sa).getD s.dests
        selected := s.selected ++ [(a, (s.dests.findnet sa).map Dest.addr)] }

/-- The chunk types that are read from a SUPPORTED-EXTENSIONS parameter. -/
def extTypes (x : Param) : List (BitVec 8) :=
  (List.range (x.plen - 4)).map fun i => c.view x.offset (min paramBufferSize x.plen) (4 + i)

/-- `SCTP_SUPPORTED_CHUNK_EXT` -/
def extParam (x : Param) (s : Load) : Turn Load :=
  if unreadable c.p x then .ret (-25)
  else
    let types := extTypes c x
    .go { s with
      asconf := s.asconf || types.contains chunkAsconf
      asconfAck := s.asconfAck || types.contains chunkAsconfAck
      prsctp := s.prsctp || types.contains forwardCumTsn
      pktdrop := s.pktdrop || types.contains packetDropped
      nrsack := s.nrsack || types.contains nrSelectiveAck
      reconfig := s.reconfig || types.contains streamReset
      auth := s.auth || types.contains chunkAuthentication
      ndata := s.ndata || (types.contains ndataChunk && s.inpNdata) }

def randomTurn (x : Param) (s : Load) : Turn Load :=
  if paramBufferSize < x.plen then .stop
  else if s.gotRandom then .go s
  else if unreadable c.p x then .ret (-26)
  else if bodyLen x ≠ authRandomSize then .ret (-27)
  else .go { s with gotRandom := true }

/-- `SCTP_HMAC_LIST`, where SHA-1 must be in the list. -/
def hmacTurn (x : Param) (s : Load) : Turn Load :=
  if paramBufferSize < x.plen then .stop
  else if s.gotHmacs then .go s
  else if unreadable c.p x then .ret (-28)
  else if (List.range (bodyLen x / 2)).any fun i =>
      (c.view x.offset x.plen (4 + 2 * i)).toNat * 256 + (c.view x.offset x.plen (5 + 2 * i)).toNat = 1 then
    .go { s with gotHmacs := true }
  else .ret (-29)

def chunkTypes (x : Param) : List (BitVec 8) :=
  (List.range (bodyLen x)).map fun i => c.view x.offset x.plen (4 + i)

/-- `SCTP_CHUNK_LIST` -/
def chunksTurn (x : Param) (s : Load) : Turn Load :=
  if paramBufferSize < x.plen then .stop
  else if s.gotChklist then .go s
  else if unreadable c.p x then .ret (-30)
  else
    .go { s with
      sawAsconf := s.sawAsconf || (chunkTypes c x).contains chunkAsconf
      sawAsconfAck := s.sawAsconfAck || (chunkTypes c x).contains chunkAsconfAck
      gotChklist := true }

def turn (asconfSupported : Bool) (x : Param) (s : Load) : Turn Load :=
  if x.type = ipv4Address then s.ipv4Param c x
  else if x.type = ipv6Address then s.ipv6Param c x
  else if x.type = ecnCapable then .go { s with ecn := true }
  else if x.type = setPrimAddr then s.setPrimParam c asconfSupported x
  else if x.type = prsctpSupported then .go { s with prsctp := true }
  else if x.type = supportedChunkExt then s.extParam c x
  else if x.type = randomParam then s.randomTurn c x
  else if x.type = hmacList then s.hmacTurn c x
  else if x.type = chunkList then s.chunksTurn c x
  else if x.type ∈ quietTypes then .go s
  else if x.type < 0x8000 then .stop
  else .go s

end Load

def markAll (d : Dests) : Dests := { d with nets := d.nets.map fun n => { n with notInAssoc := true } }

namespace Dests

theorem markAll_addrs (d : Dests) : (markAll d).addrs = d.addrs := by
  unfold markAll addrs
  rw [List.map_map]
  rfl

theorem markAll_ptrs (d : Dests) : (markAll d).ptrs = d.ptrs := by
  unfold markAll ptrs
  rw [List.map_map]
  rfl

end Dests

def Load.start (c : LoadCall) (d : Dests) (ndata : Bool) : Load where
  dests := d
  others := c.others
  vars := ⟨0, 0, .src⟩
  inpNdata := c.useNdata
  ecn := false
  prsctp := false
  auth := false
  asconf := false
  asconfAck := c.asconfAckGarbage
  reconfig := false
  nrsack := false
  pktdrop := false
  ndata := ndata
  sawAsconf := false
  sawAsconfAck := false
  gotRandom := false
  gotHmacs := false
  gotChklist := false
  selected := []

def sourceCode : Addr → ℤ
  | .v4 _ => -1
  | .v6 _ => -2

def takeSource (c : LoadCall) (d : Dests) : Except ℤ Dests :=
  match (Load.start c d false).lookup c c.src with
  | .none =>
    if c.legal c.src then
      match d.addRemoteAddr (c.add c.src) c.src with
      | none => .error (sourceCode c.src)
      | some d => .ok d
    else .ok d
  | .self n => .ok (Load.clearNotInAssoc d n)
  | .other _ => .error (-3)

/-- The loop that removes the destinations which are still marked. -/
def sweep (reachable : Addr → Bool) : List Dest → Dests → Dests
  | [], d => d
  | n :: nets, d =>
    if n.notInAssoc then
      let d := { d with numnets := d.numnets - 1, nets := d.nets.filter fun m => m.ptr ≠ n.ptr }
      sweep reachable nets
        (if d.primary = some n.ptr then { d with primary := none }.selectPrimaryDestination reachable else d)
    else sweep reachable nets d

def Load.features (s : Load) (before : Features) : Features :=
  let auth := before.auth && !(!s.auth || !s.gotRandom || !s.gotHmacs)
  { ecn := before.ecn && s.ecn
    prsctp := before.prsctp && s.prsctp
    auth := auth
    asconf := before.asconf && !(!s.asconf || !s.asconfAck || !auth || !s.sawAsconf || !s.sawAsconfAck)
    reconfig := before.reconfig && s.reconfig
    nrsack := before.nrsack && s.nrsack
    pktdrop := before.pktdrop && s.pktdrop
    ndata := s.ndata }

/-- "validate authentication required parameters" -/
def Load.check (s : Load) : ℤ :=
  if !s.auth && s.gotChklist then -31
  else if s.asconf && !s.auth then -32
  else if s.asconf && s.auth && (!s.sawAsconf || !s.sawAsconfAck) then -33
  else 0

structure Accepted where
  dests : Dests
  features : Features
  selected : List (Addr × Option Addr)

def LoadCall.params (c : LoadCall) : List Param := loadParams c.p c.offset c.limit

def walkParams (c : LoadCall) (before : Features) (d : Dests) : Except ℤ Load :=
  match takeSource c (markAll d) with
  | .error code => .error code
  | .ok d =>
    if c.freed then .error (-4)
    else scan (fun x s => s.turn c before.asconf x) c.params (.start c d before.ndata)

def loadAddressesFromInit (c : LoadCall) (before : Features) (d : Dests) : Except ℤ Accepted :=
  match walkParams c before d with
  | .error code => .error code
  | .ok s =>
    let dests := sweep c.reachable s.dests.nets s.dests
    if s.check ≠ 0 then .error s.check
    else if !c.keyAlloc then .error (-34)
    else .ok ⟨dests, s.features before, s.selected⟩

/-- A parameter at which the loop is left: an AUTH parameter longer than the buffer, or one of a type that is
not known and says to stop. -/
def stops (x : Param) : Bool :=
  if x.type ∈ authTypes then paramBufferSize < x.plen
  else x.type ∉ [ipv4Address, ipv6Address, ecnCapable, setPrimAddr, prsctpSupported, supportedChunkExt] ++
    quietTypes && x.type < 0x8000

def LoadCall.listed (c : LoadCall) : List Param := c.params.takeWhile fun x => !stops x

theorem scan_takeWhile {σ : Type} {f : Param → σ → Turn σ} {stop : Param → Bool}
    (hstop : ∀ x s, stop x = true → f x s = .stop) (xs : List Param) (s : σ) :
    scan f xs s = scan f (xs.takeWhile fun x => !stop x) s := by
  induction xs generalizing s with
  | nil => rfl
  | cons x xs ih =>
    cases hx : stop x with
    | true => rw [scan, hstop x s hx, List.takeWhile_cons_of_neg (by simp [hx]), scan]
    | false =>
      rw [scan, List.takeWhile_cons_of_pos (by simp [hx]), scan]
      cases f x s with
      | go s' => exact ih s'
      | stop => rfl
      | ret code => rfl

/-- A property of a list of parameters and the state behind them holds of all of them if each turn keeps it. -/
theorem scan_induction {σ : Type} {f : Param → σ → Turn σ} {P : List Param → σ → Prop}
    {xs : List Param} (hnostop : ∀ x ∈ xs, ∀ s, f x s ≠ .stop)
    (hstep : ∀ pre x s s', x ∈ xs → P pre s → f x s = .go s' → P (pre ++ [x]) s') {pre : List Param}
    {s s' : σ} (hP : P pre s) (h : scan f xs s = .ok s') : P (pre ++ xs) s' := by
  induction xs generalizing pre s with
  | nil =>
    rw [List.append_nil, ← Except.ok.inj h]
    exact hP
  | cons x xs ih =>
    rw [scan] at h
    cases hx : f x s with
    | go s₁ =>
      rw [hx] at h
      rw [List.append_cons]
      exact ih (fun y hy => hnostop y (List.mem_cons_of_mem _ hy))
        (fun pre y s s' hy => hstep pre y s s' (List.mem_cons_of_mem _ hy))
        (hstep pre x s s₁ List.mem_cons_self hP hx) h
    | stop => exact absurd hx (hnostop x List.mem_cons_self s)
    | ret code =>
      rw [hx] at h
      cases h

namespace Load

variable {c : LoadCall} {asconfSupported : Bool} {x : Param} {s s' : Load}

/-- What a turn does, by the type of the parameter. -/
theorem turn_cases (c : LoadCall) (asconfSupported : Bool) (x : Param) (s : Load) :
    (x.type = ipv4Address ∧ s.turn c asconfSupported x = s.ipv4Param c x) ∨
    (x.type = ipv6Address ∧ s.turn c asconfSupported x = s.ipv6Param c x) ∨
    (x.type = ecnCapable ∧ s.turn c asconfSupported x = .go { s with ecn := true }) ∨
    (x.type = setPrimAddr ∧ s.turn c asconfSupported x = s.setPrimParam c asconfSupported x) ∨
    (x.type = prsctpSupported ∧ s.turn c asconfSupported x = .go { s with prsctp := true }) ∨
    (x.type = supportedChunkExt ∧ s.turn c asconfSupported x = s.extParam c x) ∨
    (x.type = randomParam ∧ s.turn c asconfSupported x = s.randomTurn c x) ∨
    (x.type = hmacList ∧ s.turn c asconfSupported x = s.hmacTurn c x) ∨
    (x.type = chunkList ∧ s.turn c asconfSupported x = s.chunksTurn c x) ∨
    ((x.type ∉ [ipv4Address, ipv6Address, ecnCapable, setPrimAddr, prsctpSupported, supportedChunkExt,
        randomParam, hmacList, chunkList]) ∧
      s.turn c asconfSupported x = if x.type ∉ quietTypes ∧ x.type < 0x8000 then .stop else .go s) := by
  unfold turn
  by_cases h4 : x.type = ipv4Address
  · exact Or.inl ⟨h4, if_pos h4⟩
  rw [if_neg h4]
  by_cases h6 : x.type = ipv6Address
  · exact Or.inr (Or.inl ⟨h6, if_pos h6⟩)
  rw [if_neg h6]
  refine Or.inr (Or.inr ?_)
  by_cases hecn : x.type = ecnCapable
  · exact Or.inl ⟨hecn, if_pos hecn⟩
  rw [if_neg hecn]
  by_cases hprim : x.type = setPrimAddr
  · exact Or.inr (Or.inl ⟨hprim, if_pos hprim⟩)
  rw [if_neg hprim]
  refine Or.inr (Or.inr ?_)
  by_cases hpr : x.type = prsctpSupported
  · exact Or.inl ⟨hpr, if_pos hpr⟩
  rw [if_neg hpr]
  by_cases hext : x.type = supportedChunkExt
  · exact Or.inr (Or.inl ⟨hext, if_pos hext⟩)
  rw [if_neg hext]
  refine Or.inr (Or.inr ?_)
  by_cases hrandom : x.type = randomParam
  · exact Or.inl ⟨hrandom, if_pos hrandom⟩
  rw [if_neg hrandom]
  by_cases hhmac : x.type = hmacList
  · exact Or.inr (Or.inl ⟨hhmac, if_pos hhmac⟩)
  rw [if_neg hhmac]
  refine Or.inr (Or.inr ?_)
  by_cases hchunks : x.type = chunkList
  · exact Or.inl ⟨hchunks, if_pos hchunks⟩
  rw [if_neg hchunks]
  refine Or.inr ⟨by simp only [List.mem_cons, h4, h6, hecn, hprim, hpr, hext, hrandom, hhmac, hchunks,
    List.not_mem_nil, or_false, not_false_eq_true], ?_⟩
  by_cases hquiet : x.type ∈ quietTypes
  · rw [if_pos hquiet, if_neg fun h => h.1 hquiet]
  · rw [if_neg hquiet]
    by_cases hlow : x.type < 0x8000
    · rw [if_pos hlow, if_pos ⟨hquiet, hlow⟩]
    · rw [if_neg hlow, if_neg fun h => hlow h.2]

theorem addItNow_ne_stop {a : Addr} {code : ℤ} : s.addItNow c a code ≠ .stop := by
  unfold addItNow
  split <;> exact nofun

theorem takeAddr_ne_stop {a : Addr} {codeAdd codeOther : ℤ} :
    s.takeAddr c a codeAdd codeOther ≠ .stop := by
  unfold takeAddr
  split
  · exact addItNow_ne_stop
  · exact nofun
  · split
    · exact addItNow_ne_stop
    · exact nofun

theorem ipv4Param_ne_stop : s.ipv4Param c x ≠ .stop := by
  unfold ipv4Param
  split
  · exact nofun
  split
  · exact nofun
  dsimp only
  split
  · exact takeAddr_ne_stop
  · exact nofun

theorem ipv6Param_ne_stop : s.ipv6Param c x ≠ .stop := by
  unfold ipv6Param
  split
  · exact nofun
  split
  · exact nofun
  dsimp only
  split
  · exact takeAddr_ne_stop
  · exact nofun

theorem setPrimParam_ne_stop : s.setPrimParam c asconfSupported x ≠ .stop := by
  unfold setPrimParam
  split
  · exact nofun
  split
  · exact nofun
  split
  · exact nofun
  split
  · exact nofun
  · exact nofun

theorem extParam_ne_stop : s.extParam c x ≠ .stop := by
  unfold extParam
  split
  · exact nofun
  · exact nofun

theorem randomTurn_ne_stop (h : ¬ paramBufferSize < x.plen) : s.randomTurn c x ≠ .stop := by
  unfold randomTurn
  rw [if_neg h]
  split
  · exact nofun
  split
  · exact nofun
  split
  · exact nofun
  · exact nofun

theorem hmacTurn_ne_stop (h : ¬ paramBufferSize < x.plen) : s.hmacTurn c x ≠ .stop := by
  unfold hmacTurn
  rw [if_neg h]
  split
  · exact nofun
  split
  · exact nofun
  split
  · exact nofun
  · exact nofun

theorem chunksTurn_ne_stop (h : ¬ paramBufferSize < x.plen) : s.chunksTurn c x ≠ .stop := by
  unfold chunksTurn
  rw [if_neg h]
  split
  · exact nofun
  split
  · exact nofun
  · exact nofun

theorem addItNow_go {a : Addr} {code : ℤ} (h : s.addItNow c a code = .go s') :
    ∃ d, s.dests.addRemoteAddr (c.add a) a = some d ∧ s' = { s with dests := d } := by
  unfold addItNow at h
  cases hadd : s.dests.addRemoteAddr (c.add a) a with
  | none =>
    rw [hadd] at h
    cases h
  | some d =>
    rw [hadd] at h
    exact ⟨d, rfl, (Turn.go.inj h).symm⟩

theorem takeAddr_go {a : Addr} {codeAdd codeOther : ℤ} (h : s.takeAddr c a codeAdd codeOther = .go s') :
    (s.others a = none ∧ ∃ d, (s.dests.addRemoteAddr (c.add a) a = some d ∨
        ∃ n ∈ s.dests.nets, n.addr = a ∧ d = clearNotInAssoc s.dests n) ∧
      s' = { s with inpNdata := c.useNdata, dests := d }) ∨
    (∃ o d, s.others a = some o ∧ s.dests.addRemoteAddr (c.add a) a = some d ∧
      s' = { s with
        inpNdata := o.useNdata
        others := fun b => (s.others b).filter fun o' => o'.id ≠ o.id
        dests := d }) := by
  unfold takeAddr lookup at h
  cases hother : s.others a with
  | some o =>
    rw [hother] at h
    dsimp only at h
    split at h
    · obtain ⟨d, hadd, rfl⟩ := addItNow_go h
      exact Or.inr ⟨o, d, rfl, hadd, rfl⟩
    · cases h
  | none =>
    rw [hother] at h
    dsimp only at h
    refine Or.inl ⟨rfl, ?_⟩
    cases hself : if c.found a then s.dests.findnet a else none with
    | none =>
      rw [hself] at h
      obtain ⟨d, hadd, rfl⟩ := addItNow_go h
      exact ⟨d, Or.inl hadd, rfl⟩
    | some n =>
      rw [hself] at h
      have hfind : s.dests.findnet a = some n := by
        split at hself
        · exact hself
        · cases hself
      obtain ⟨hn, haddr⟩ := Dests.findnet_eq_some_mem hfind
      exact ⟨_, Or.inr ⟨n, hn, haddr, rfl⟩, (Turn.go.inj h).symm⟩

/-- The address parameters, of which the family decides. -/
theorem ipv4Param_go (h : s.ipv4Param c x = .go s') :
    (c.ipv4AddrLegal = false ∧ s' = s) ∨
    (c.ipv4AddrLegal = true ∧ unicast (.v4 (c.v4At (x.offset + 4))) = false ∧
      s' = { s with vars := s.vars.list (.v4 (c.v4At (x.offset + 4))) }) ∨
    (c.ipv4AddrLegal = true ∧ unicast (.v4 (c.v4At (x.offset + 4))) = true ∧
      { s with vars := s.vars.list (.v4 (c.v4At (x.offset + 4))) }.takeAddr c
        (.v4 (c.v4At (x.offset + 4))) (-8) (-13) = .go s') := by
  unfold ipv4Param at h
  cases hlegal : c.ipv4AddrLegal with
  | false =>
    rw [hlegal] at h
    exact Or.inl ⟨rfl, (Turn.go.inj h).symm⟩
  | true =>
    rw [hlegal, Bool.not_true, if_neg Bool.false_ne_true] at h
    split at h
    · cases h
    dsimp only at h
    cases huni : unicast (.v4 (c.v4At (x.offset + 4))) with
    | false =>
      rw [huni, if_neg Bool.false_ne_true] at h
      exact Or.inr (Or.inl ⟨rfl, rfl, (Turn.go.inj h).symm⟩)
    | true =>
      rw [huni, if_pos rfl] at h
      exact Or.inr (Or.inr ⟨rfl, rfl, h⟩)

theorem ipv6Param_go (h : s.ipv6Param c x = .go s') :
    (c.ipv6AddrLegal = false ∧ s' = s) ∨
    (c.ipv6AddrLegal = true ∧ unicast (.v6 (c.v6At (x.offset + 4))) = false ∧
      s' = { s with vars := s.vars.list (.v6 (c.v6At (x.offset + 4))) }) ∨
    (c.ipv6AddrLegal = true ∧ unicast (.v6 (c.v6At (x.offset + 4))) = true ∧
      { s with vars := s.vars.list (.v6 (c.v6At (x.offset + 4))) }.takeAddr c
        (.v6 (c.v6At (x.offset + 4))) (-17) (-22) = .go s') := by
  unfold ipv6Param at h
  cases hlegal : c.ipv6AddrLegal with
  | false =>
    rw [hlegal] at h
    exact Or.inl ⟨rfl, (Turn.go.inj h).symm⟩
  | true =>
    rw [hlegal, Bool.not_true, if_neg Bool.false_ne_true] at h
    split at h
    · cases h
    dsimp only at h
    cases huni : unicast (.v6 (c.v6At (x.offset + 4))) with
    | false =>
      rw [huni, if_neg Bool.false_ne_true] at h
      exact Or.inr (Or.inl ⟨rfl, rfl, (Turn.go.inj h).symm⟩)
    | true =>
      rw [huni, if_pos rfl] at h
      exact Or.inr (Or.inr ⟨rfl, rfl, h⟩)

theorem setPrimParam_go (h : s.setPrimParam c asconfSupported x = .go s') :
    (lsa c x = none ∧ s' = s) ∨
    ∃ a, lsa c x = some a ∧ s' = { s with
      vars := s.vars.name a
      dests := (s.dests.setPrimaryAddr ((s.vars.name a).value c)).getD s.dests
      selected := s.selected ++ [(a, (s.dests.findnet ((s.vars.name a).value c)).map Dest.addr)] } := by
  unfold setPrimParam at h
  split at h
  · cases h
  split at h
  · cases h
  split at h
  · cases h
  cases hlsa : lsa c x with
  | none =>
    rw [hlsa] at h
    exact Or.inl ⟨rfl, (Turn.go.inj h).symm⟩
  | some a =>
    rw [hlsa] at h
    exact Or.inr ⟨a, rfl, (Turn.go.inj h).symm⟩

theorem randomTurn_go (h : s.randomTurn c x = .go s') : s' = { s with gotRandom := true } := by
  unfold randomTurn at h
  split at h
  · cases h
  split at h
  · rename_i hgot
    rw [← Turn.go.inj h, ← hgot]
  split at h
  · cases h
  split at h
  · cases h
  · exact (Turn.go.inj h).symm

theorem hmacTurn_go (h : s.hmacTurn c x = .go s') : s' = { s with gotHmacs := true } := by
  unfold hmacTurn at h
  split at h
  · cases h
  split at h
  · rename_i hgot
    rw [← Turn.go.inj h, ← hgot]
  split at h
  · cases h
  split at h
  · exact (Turn.go.inj h).symm
  · cases h

theorem chunksTurn_go (h : s.chunksTurn c x = .go s') :
    ∃ sawAsconf sawAsconfAck, s' = { s with
      sawAsconf := sawAsconf
      sawAsconfAck := sawAsconfAck
      gotChklist := true } := by
  unfold chunksTurn at h
  split at h
  · cases h
  split at h
  · rename_i hgot
    exact ⟨s.sawAsconf, s.sawAsconfAck, by rw [← Turn.go.inj h, ← hgot]⟩
  split at h
  · cases h
  · exact ⟨_, _, (Turn.go.inj h).symm⟩

end Load

/-- The address of an address parameter of a family that is legal. -/
def LoadCall.heardAddr (c : LoadCall) (x : Param) : Option Addr :=
  if x.type = ipv4Address ∧ c.ipv4AddrLegal then some (.v4 (c.v4At (x.offset + 4)))
  else if x.type = ipv6Address ∧ c.ipv6AddrLegal then some (.v6 (c.v6At (x.offset + 4)))
  else none

def LoadCall.listedAddr (c : LoadCall) (x : Param) : Option Addr := (c.heardAddr x).filter unicast

namespace Load

variable {c : LoadCall} {asconfSupported : Bool} {x : Param} {s s' : Load}

theorem addrParam_go (h : (x.type = ipv4Address ∧ s.ipv4Param c x = .go s') ∨
      (x.type = ipv6Address ∧ s.ipv6Param c x = .go s')) :
    (c.heardAddr x = none ∧ s' = s) ∨
    (∃ a, c.heardAddr x = some a ∧ unicast a = false ∧ s' = { s with vars := s.vars.list a }) ∨
    (∃ a codeAdd codeOther, c.heardAddr x = some a ∧ unicast a = true ∧
      { s with vars := s.vars.list a }.takeAddr c a codeAdd codeOther = .go s') := by
  unfold LoadCall.heardAddr
  rcases h with ⟨hx, h⟩ | ⟨hx, h⟩
  · rcases ipv4Param_go h with ⟨hlegal, rfl⟩ | ⟨hlegal, huni, rfl⟩ | ⟨hlegal, huni, htake⟩
    · refine Or.inl ⟨?_, rfl⟩
      rw [if_neg (by simp [hlegal]), if_neg (by rw [hx]; exact fun h => absurd h.1 (by decide))]
    · exact Or.inr (Or.inl ⟨_, if_pos ⟨hx, hlegal⟩, huni, rfl⟩)
    · exact Or.inr (Or.inr ⟨_, _, _, if_pos ⟨hx, hlegal⟩, huni, htake⟩)
  · have hnot : ¬ (x.type = ipv4Address ∧ c.ipv4AddrLegal = true) := by
      rw [hx]
      exact fun h => absurd h.1 (by decide)
    rw [if_neg hnot]
    rcases ipv6Param_go h with ⟨hlegal, rfl⟩ | ⟨hlegal, huni, rfl⟩ | ⟨hlegal, huni, htake⟩
    · exact Or.inl ⟨if_neg (by simp [hlegal]), rfl⟩
    · exact Or.inr (Or.inl ⟨_, if_pos ⟨hx, hlegal⟩, huni, rfl⟩)
    · exact Or.inr (Or.inr ⟨_, _, _, if_pos ⟨hx, hlegal⟩, huni, htake⟩)

theorem heardAddr_of_type {t : ℕ} (hx : x.type = t) (h4 : t ≠ ipv4Address) (h6 : t ≠ ipv6Address) :
    c.heardAddr x = none := by
  unfold LoadCall.heardAddr
  rw [if_neg (by rw [hx]; exact fun h => h4 h.1), if_neg (by rw [hx]; exact fun h => h6 h.1)]

/-- The loop is left at the parameters that say so. -/
theorem stops_of_type {t : ℕ} (hx : x.type = t) (hknown : t ∉ authTypes)
    (hlist : t ∈ [ipv4Address, ipv6Address, ecnCapable, setPrimAddr, prsctpSupported, supportedChunkExt] ++
      quietTypes) : stops x = false := by
  unfold stops
  rw [if_neg (by rw [hx]; exact hknown), hx, decide_eq_false (not_not.mpr hlist), Bool.false_and]

theorem stops_of_auth {t : ℕ} (hx : x.type = t) (hauth : t ∈ authTypes) :
    stops x = decide (paramBufferSize < x.plen) := by
  unfold stops
  rw [if_pos (by rw [hx]; exact hauth)]

theorem turn_of_stops : (stops x = true → s.turn c asconfSupported x = .stop) ∧
    (stops x = false → s.turn c asconfSupported x ≠ .stop) := by
  rcases turn_cases c asconfSupported x s with ⟨hx, heq⟩ | ⟨hx, heq⟩ | ⟨hx, heq⟩ | ⟨hx, heq⟩ | ⟨hx, heq⟩ |
    ⟨hx, heq⟩ | ⟨hx, heq⟩ | ⟨hx, heq⟩ | ⟨hx, heq⟩ | ⟨hx, heq⟩
  · rw [stops_of_type hx (by decide) (by decide), heq]
    exact ⟨nofun, fun _ => ipv4Param_ne_stop⟩
  · rw [stops_of_type hx (by decide) (by decide), heq]
    exact ⟨nofun, fun _ => ipv6Param_ne_stop⟩
  · rw [stops_of_type hx (by decide) (by decide), heq]
    exact ⟨nofun, fun _ => nofun⟩
  · rw [stops_of_type hx (by decide) (by decide), heq]
    exact ⟨nofun, fun _ => setPrimParam_ne_stop⟩
  · rw [stops_of_type hx (by decide) (by decide), heq]
    exact ⟨nofun, fun _ => nofun⟩
  · rw [stops_of_type hx (by decide) (by decide), heq]
    exact ⟨nofun, fun _ => extParam_ne_stop⟩
  · rw [stops_of_auth hx (by decide), heq]
    exact ⟨fun h => if_pos (of_decide_eq_true h), fun h => randomTurn_ne_stop (of_decide_eq_false h)⟩
  · rw [stops_of_auth hx (by decide), heq]
    exact ⟨fun h => if_pos (of_decide_eq_true h), fun h => hmacTurn_ne_stop (of_decide_eq_false h)⟩
  · rw [stops_of_auth hx (by decide), heq]
    exact ⟨fun h => if_pos (of_decide_eq_true h), fun h => chunksTurn_ne_stop (of_decide_eq_false h)⟩
  · have hauth : x.type ∉ authTypes := fun hmem => hx (by
      simp only [authTypes, List.mem_cons, List.not_mem_nil, or_false] at hmem ⊢
      tauto)
    have hstops : stops x = decide (x.type ∉ quietTypes ∧ x.type < 0x8000) := by
      unfold stops
      rw [if_neg hauth, Bool.decide_and]
      congr 2
      simp only [List.mem_append, eq_iff_iff, not_iff_not, or_iff_right_iff_imp]
      intro hmem
      exact absurd (by simp only [List.mem_cons, List.not_mem_nil, or_false] at hmem ⊢; tauto) hx
    rw [hstops, heq]
    exact ⟨fun h => if_pos (of_decide_eq_true h), fun h => by rw [if_neg (of_decide_eq_false h)]; exact nofun⟩

end Load

theorem stops_of_mem_listed {c : LoadCall} {x : Param} (hx : x ∈ c.listed) : stops x = false := by
  have hall := List.mem_takeWhile_imp hx
  simpa using hall

/-- The loop goes through the listed parameters. -/
theorem walkParams_eq {c : LoadCall} {before : Features} {d d' : Dests} (hsource : takeSource c (markAll d) = .ok d')
    (hfreed : c.freed = false) : walkParams c before d =
      scan (fun x s => s.turn c before.asconf x) c.listed (.start c d' before.ndata) := by
  have hstop : ∀ x (s : Load), stops x = true → s.turn c before.asconf x = .stop :=
    fun _ _ hx => Load.turn_of_stops.1 hx
  unfold walkParams
  rw [hsource]
  dsimp only
  rw [hfreed, if_neg Bool.false_ne_true, LoadCall.params, scan_takeWhile hstop]
  rfl

theorem walkParams_ok {c : LoadCall} {before : Features} {d : Dests} {s : Load} (h : walkParams c before d = .ok s) :
    ∃ d', takeSource c (markAll d) = .ok d' ∧
      scan (fun x s => s.turn c before.asconf x) c.listed (.start c d' before.ndata) = .ok s := by
  cases hsource : takeSource c (markAll d) with
  | error code =>
    unfold walkParams at h
    rw [hsource] at h
    cases h
  | ok d' =>
    cases hfreed : c.freed with
    | true =>
      unfold walkParams at h
      rw [hsource] at h
      dsimp only at h
      rw [hfreed, if_pos rfl] at h
      cases h
    | false =>
      rw [walkParams_eq hsource hfreed] at h
      exact ⟨d', rfl, h⟩

theorem loadAddressesFromInit_ok {c : LoadCall} {before : Features} {d : Dests} {r : Accepted}
    (h : loadAddressesFromInit c before d = .ok r) :
    ∃ s, walkParams c before d = .ok s ∧ s.check = 0 ∧
      r = ⟨sweep c.reachable s.dests.nets s.dests, s.features before, s.selected⟩ := by
  unfold loadAddressesFromInit at h
  cases hwalk : walkParams c before d with
  | error code =>
    rw [hwalk] at h
    cases h
  | ok s =>
    rw [hwalk] at h
    dsimp only at h
    split at h
    · cases h
    split at h
    · cases h
    · rename_i hcheck _
      exact ⟨s, rfl, not_not.mp hcheck, (Except.ok.inj h).symm⟩

/-- A call with some parameters, in which no other association has an address. -/
def plainCall (p : Bytes) (garbage : Bool) : LoadCall where
  p := p
  offset := 0
  limit := p.length
  src := .v4 0x0a000001
  behind := fun _ _ => 0
  asconfAckGarbage := garbage
  ipv4AddrLegal := true
  ipv6AddrLegal := true
  useNdata := true
  freed := false
  found := fun _ => true
  others := fun _ => none
  add := fun _ => ⟨true, some 0, true⟩
  reachable := fun _ => true
  keyAlloc := true

/-- An association with the destination that the packet came from. -/
def oneDest : Dests where
  nets := [⟨0, .v4 0x0a000001, true, false, false, false, false, false, some 0⟩]
  numnets := 1
  primary := some 0
  alternate := none
  lastDataChunkFrom := none
  lastControlChunkFrom := none
  fresh := 1

/-- What a call that is evaluated comes back with. -/
theorem exists_accepted {c : LoadCall} {before : Features} {d : Dests} {β : Type} {f : Accepted → β} {b : β}
    (h : (loadAddressesFromInit c before d).toOption.map f = some b) :
    ∃ r, loadAddressesFromInit c before d = .ok r ∧ f r = b := by
  cases hload : loadAddressesFromInit c before d with
  | error code =>
    rw [hload] at h
    cases h
  | ok r =>
    rw [hload] at h
    exact ⟨r, rfl, Option.some.inj h⟩

end Sctp.Nets
