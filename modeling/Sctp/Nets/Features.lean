import Sctp.Nets.LoadInit

/-! Which features are left when the parameters of the peer were accepted. -/
namespace Sctp.Nets

open Asconf (Addr)
open Auth
open Tlv (Param)

namespace LoadCall

variable (c : LoadCall)

def bytes (x : Param) : List (BitVec 8) := (List.range (x.plen - 4)).map fun i => c.p.getD (x.offset + 4 + i) 0

def carries (t : ℕ) : Bool := c.listed.any fun x => x.type = t

def names (t : ℕ) (chunk : BitVec 8) : Bool := c.listed.any fun x => x.type = t && (c.bytes x).contains chunk

/-- The parameters without their places: type, length and bytes. -/
def contents : List (ℕ × ℕ × List (BitVec 8)) := c.listed.map fun x => (x.type, x.plen, c.bytes x)

/-- Another call with the same parameters, in whatever order and however often, for an association with the
same settings. Packet, memory, other associations and destinations may be others. -/
structure Restates (c' c : LoadCall) : Prop where
  contents : ∀ y, y ∈ c'.contents ↔ y ∈ c.contents
  useNdata : c'.useNdata = c.useNdata
  ipv4AddrLegal : c'.ipv4AddrLegal = c.ipv4AddrLegal
  ipv6AddrLegal : c'.ipv6AddrLegal = c.ipv6AddrLegal

/-- No more and no less is read of the parameters with chunk types than they have. -/
def Sized (c : LoadCall) : Prop :=
  ∀ x ∈ c.listed, (x.type = chunkList → 4 ≤ x.plen) ∧ (x.type = supportedChunkExt → x.plen ≤ paramBufferSize)

end LoadCall

def announced (c : LoadCall) (before : Features) : Features :=
  let auth := before.auth && c.names supportedChunkExt chunkAuthentication && c.carries randomParam &&
    c.carries hmacList
  { ecn := before.ecn && c.carries ecnCapable
    prsctp := before.prsctp && (c.carries prsctpSupported || c.names supportedChunkExt forwardCumTsn)
    auth := auth
    asconf := before.asconf && auth && c.names supportedChunkExt chunkAsconf &&
      c.names supportedChunkExt chunkAsconfAck && c.names chunkList chunkAsconf &&
      c.names chunkList chunkAsconfAck
    reconfig := before.reconfig && c.names supportedChunkExt streamReset
    nrsack := before.nrsack && c.names supportedChunkExt nrSelectiveAck
    pktdrop := before.pktdrop && c.names supportedChunkExt packetDropped
    ndata := before.ndata || (c.names supportedChunkExt ndataChunk && c.useNdata) }

/-- The features that are left are those, and every accepted call with the same parameters leaves them too. -/
structure ExactlyNegotiated (c : LoadCall) (before : Features) (r : Accepted) : Prop where
  features : r.features = announced c before
  unordered : ∀ c' d' r', c'.Restates c → loadAddressesFromInit c' before d' = .ok r' →
    r'.features = r.features

/-- Where ASCONF could be left, it is announced only with ASCONF-ACK, and where I-DATA is announced anew, no
address is listed with it. -/
structure Settled (c : LoadCall) (before : Features) : Prop where
  asconf : before.asconf = true → (announced c before).auth = true →
    c.names supportedChunkExt chunkAsconf = true → c.names supportedChunkExt chunkAsconfAck = true
  ndata : before.ndata = false → c.names supportedChunkExt ndataChunk = true →
    ∀ x ∈ c.listed, c.listedAddr x = none

/-- The other associations behind a parameter: one in set-up is aborted when an address of it is listed. -/
def othersAfter (c : LoadCall) (others : Addr → Option Other) (x : Param) : Addr → Option Other :=
  match c.listedAddr x with
  | none => others
  | some a =>
    match others a with
    | none => others
    | some o => fun b => (others b).filter fun o' => o'.id ≠ o.id

/-- Whether what `inp` points to behind a parameter has `SCTP_PCB_FLAGS_USE_NDATA` on. -/
def inpAfter (c : LoadCall) (others : Addr → Option Other) (inpNdata : Bool) (x : Param) : Bool :=
  match c.listedAddr x with
  | none => inpNdata
  | some a =>
    match others a with
    | none => c.useNdata
    | some o => o.useNdata

/-- I-DATA is read while `inp` points to an endpoint with the feature on. -/
def ndataRead (c : LoadCall) : (Addr → Option Other) → Bool → List Param → Bool
  | _, _, [] => false
  | others, inpNdata, x :: xs =>
    (x.type = supportedChunkExt && (Load.extTypes c x).contains ndataChunk && inpNdata) ||
      ndataRead c (othersAfter c others x) (inpAfter c others inpNdata x) xs

/-- A chunk type is read from a SUPPORTED-EXTENSIONS parameter. -/
def extRead (c : LoadCall) (chunk : BitVec 8) : Bool :=
  c.listed.any fun x => x.type = supportedChunkExt && (Load.extTypes c x).contains chunk

structure Noted (c : LoadCall) (x : Param) (s s' : Load) : Prop where
  ecn : s'.ecn = (s.ecn || decide (x.type = ecnCapable))
  prsctp : s'.prsctp = (s.prsctp || (decide (x.type = prsctpSupported) ||
    (decide (x.type = supportedChunkExt) && (Load.extTypes c x).contains forwardCumTsn)))
  auth : s'.auth =
    (s.auth || (decide (x.type = supportedChunkExt) && (Load.extTypes c x).contains chunkAuthentication))
  asconf : s'.asconf =
    (s.asconf || (decide (x.type = supportedChunkExt) && (Load.extTypes c x).contains chunkAsconf))
  asconfAck : s'.asconfAck =
    (s.asconfAck || (decide (x.type = supportedChunkExt) && (Load.extTypes c x).contains chunkAsconfAck))
  reconfig : s'.reconfig =
    (s.reconfig || (decide (x.type = supportedChunkExt) && (Load.extTypes c x).contains streamReset))
  nrsack : s'.nrsack =
    (s.nrsack || (decide (x.type = supportedChunkExt) && (Load.extTypes c x).contains nrSelectiveAck))
  pktdrop : s'.pktdrop =
    (s.pktdrop || (decide (x.type = supportedChunkExt) && (Load.extTypes c x).contains packetDropped))
  ndata : s'.ndata = (s.ndata ||
    (decide (x.type = supportedChunkExt) && (Load.extTypes c x).contains ndataChunk && s.inpNdata))
  gotRandom : s'.gotRandom = (s.gotRandom || decide (x.type = randomParam))
  gotHmacs : s'.gotHmacs = (s.gotHmacs || decide (x.type = hmacList))
  others : s'.others = othersAfter c s.others x
  inpNdata : s'.inpNdata = inpAfter c s.others s.inpNdata x

variable {c : LoadCall} {x : Param} {s s' : Load}

/-- A turn that only looks up an address, or asks for another primary destination. -/
theorem noted_of_frame {t : ℕ} (hx : x.type = t)
    (ht : t ∉ [ecnCapable, prsctpSupported, supportedChunkExt, randomParam, hmacList]) (s : Load) (d : Dests)
    (v : Vars) (sel : List (Addr × Option Addr)) (saw sawAck got : Bool) :
    Noted c x s { s with
      dests := d
      vars := v
      selected := sel
      sawAsconf := saw
      sawAsconfAck := sawAck
      gotChklist := got
      others := othersAfter c s.others x
      inpNdata := inpAfter c s.others s.inpNdata x } := by
  have hne : ∀ k ∈ [ecnCapable, prsctpSupported, supportedChunkExt, randomParam, hmacList],
      decide (x.type = k) = false := by
    intro k hk
    rw [hx]
    exact decide_eq_false fun h => ht (h ▸ hk)
  have hecn := hne ecnCapable (by decide)
  have hpr := hne prsctpSupported (by decide)
  have hext := hne supportedChunkExt (by decide)
  have hrandom := hne randomParam (by decide)
  have hhmac := hne hmacList (by decide)
  constructor <;> simp only [hecn, hpr, hext, hrandom, hhmac, Bool.false_and, Bool.or_false]

theorem othersAfter_of_none (others : Addr → Option Other) (h : c.listedAddr x = none) :
    othersAfter c others x = others := by
  unfold othersAfter
  rw [h]

theorem inpAfter_of_none (others : Addr → Option Other) (inp : Bool) (h : c.listedAddr x = none) :
    inpAfter c others inp x = inp := by
  unfold inpAfter
  rw [h]

theorem listedAddr_of_type {t : ℕ} (hx : x.type = t) (h4 : t ≠ ipv4Address) (h6 : t ≠ ipv6Address) :
    c.listedAddr x = none := by
  unfold LoadCall.listedAddr
  rw [Load.heardAddr_of_type hx h4 h6]
  rfl

/-- An address parameter. -/
theorem noted_addr (hx : x.type = ipv4Address ∨ x.type = ipv6Address)
    (h : (c.heardAddr x = none ∧ s' = s) ∨
      (∃ a, c.heardAddr x = some a ∧ unicast a = false ∧ s' = { s with vars := s.vars.list a }) ∨
      (∃ a codeAdd codeOther, c.heardAddr x = some a ∧ unicast a = true ∧
        Load.takeAddr c { s with vars := s.vars.list a } a codeAdd codeOther = .go s')) :
    Noted c x s s' := by
  obtain ⟨t, ht, hnot⟩ : ∃ t, x.type = t ∧
      t ∉ [ecnCapable, prsctpSupported, supportedChunkExt, randomParam, hmacList] := by
    rcases hx with hx | hx
    · exact ⟨_, hx, by decide⟩
    · exact ⟨_, hx, by decide⟩
  rcases h with ⟨hheard, rfl⟩ | ⟨a, hheard, huni, rfl⟩ | ⟨a, codeAdd, codeOther, hheard, huni, htake⟩
  · have hlisted : c.listedAddr x = none := by
      unfold LoadCall.listedAddr
      rw [hheard]
      rfl
    have hframe := noted_of_frame (c := c) ht hnot s' s'.dests s'.vars s'.selected s'.sawAsconf
      s'.sawAsconfAck s'.gotChklist
    rw [othersAfter_of_none _ hlisted, inpAfter_of_none _ _ hlisted] at hframe
    exact hframe
  · have hlisted : c.listedAddr x = none := by
      unfold LoadCall.listedAddr
      rw [hheard, Option.filter_some, if_neg (by rw [huni]; exact Bool.false_ne_true)]
    have hframe := noted_of_frame (c := c) ht hnot s s.dests (s.vars.list a) s.selected s.sawAsconf
      s.sawAsconfAck s.gotChklist
    rw [othersAfter_of_none _ hlisted, inpAfter_of_none _ _ hlisted] at hframe
    exact hframe
  · have hlisted : c.listedAddr x = some a := by
      unfold LoadCall.listedAddr
      rw [hheard, Option.filter_some, if_pos huni]
    rcases Load.takeAddr_go htake with ⟨hother, d, -, rfl⟩ | ⟨o, d, hother, -, rfl⟩
    · have hother : s.others a = none := hother
      have hothers : othersAfter c s.others x = s.others := by
        unfold othersAfter
        rw [hlisted]
        dsimp only
        rw [hother]
      have hinp : inpAfter c s.others s.inpNdata x = c.useNdata := by
        unfold inpAfter
        rw [hlisted]
        dsimp only
        rw [hother]
      have hframe := noted_of_frame (c := c) ht hnot s d (s.vars.list a) s.selected s.sawAsconf
        s.sawAsconfAck s.gotChklist
      rw [hothers, hinp] at hframe
      exact hframe
    · have hother : s.others a = some o := hother
      have hothers : othersAfter c s.others x = fun b => (s.others b).filter fun o' => o'.id ≠ o.id := by
        unfold othersAfter
        rw [hlisted]
        dsimp only
        rw [hother]
      have hinp : inpAfter c s.others s.inpNdata x = o.useNdata := by
        unfold inpAfter
        rw [hlisted]
        dsimp only
        rw [hother]
      have hframe := noted_of_frame (c := c) ht hnot s d (s.vars.list a) s.selected s.sawAsconf
        s.sawAsconfAck s.gotChklist
      rw [hothers, hinp] at hframe
      exact hframe

/-- A parameter about a feature. -/
theorem noted_of_type {t : ℕ} (hx : x.type = t) (h4 : t ≠ ipv4Address) (h6 : t ≠ ipv6Address) :
    othersAfter c s.others x = s.others ∧ inpAfter c s.others s.inpNdata x = s.inpNdata :=
  ⟨othersAfter_of_none _ (listedAddr_of_type hx h4 h6), inpAfter_of_none _ _ (listedAddr_of_type hx h4 h6)⟩

theorem noted_ecn (hx : x.type = ecnCapable) : Noted c x s { s with ecn := true } := by
  obtain ⟨hothers, hinp⟩ := noted_of_type (c := c) (s := s) hx (by decide) (by decide)
  constructor <;>
    simp [hx, hothers, hinp, ecnCapable, prsctpSupported, supportedChunkExt, randomParam, hmacList]

theorem noted_prsctp (hx : x.type = prsctpSupported) : Noted c x s { s with prsctp := true } := by
  obtain ⟨hothers, hinp⟩ := noted_of_type (c := c) (s := s) hx (by decide) (by decide)
  constructor <;>
    simp [hx, hothers, hinp, ecnCapable, prsctpSupported, supportedChunkExt, randomParam, hmacList]

theorem noted_random (hx : x.type = randomParam) : Noted c x s { s with gotRandom := true } := by
  obtain ⟨hothers, hinp⟩ := noted_of_type (c := c) (s := s) hx (by decide) (by decide)
  constructor <;>
    simp [hx, hothers, hinp, ecnCapable, prsctpSupported, supportedChunkExt, randomParam, hmacList]

theorem noted_hmacs (hx : x.type = hmacList) : Noted c x s { s with gotHmacs := true } := by
  obtain ⟨hothers, hinp⟩ := noted_of_type (c := c) (s := s) hx (by decide) (by decide)
  constructor <;>
    simp [hx, hothers, hinp, ecnCapable, prsctpSupported, supportedChunkExt, randomParam, hmacList]

theorem noted_ext (hx : x.type = supportedChunkExt) (h : s.extParam c x = .go s') : Noted c x s s' := by
  obtain ⟨hothers, hinp⟩ := noted_of_type (c := c) (s := s) hx (by decide) (by decide)
  unfold Load.extParam at h
  split at h
  · cases h
  · rw [← Turn.go.inj h]
    constructor <;>
      simp [hx, hothers, hinp, ecnCapable, prsctpSupported, supportedChunkExt, randomParam, hmacList]

theorem noted_quiet (hx : x.type ∉ [ipv4Address, ipv6Address, ecnCapable, setPrimAddr, prsctpSupported,
    supportedChunkExt, randomParam, hmacList, chunkList]) : Noted c x s s := by
  have hne : ∀ t ∈ [ipv4Address, ipv6Address, ecnCapable, setPrimAddr, prsctpSupported,
      supportedChunkExt, randomParam, hmacList, chunkList], t ≠ x.type := fun t ht heq => hx (heq ▸ ht)
  obtain ⟨hothers, hinp⟩ := noted_of_type (c := c) (s := s) (rfl : x.type = x.type)
    (Ne.symm (hne ipv4Address (by decide))) (Ne.symm (hne ipv6Address (by decide)))
  have hframe := noted_of_frame (c := c) (rfl : x.type = x.type)
    (fun hmem => hx (by simp only [List.mem_cons, List.not_mem_nil, or_false] at hmem ⊢; tauto)) s s.dests
    s.vars s.selected s.sawAsconf s.sawAsconfAck s.gotChklist
  rw [hothers, hinp] at hframe
  exact hframe

/-- A turn that goes on notes down what the parameter is about. -/
theorem noted_turn {asconfSupported : Bool} (h : s.turn c asconfSupported x = .go s') :
    Noted c x s s' := by
  rcases Load.turn_cases c asconfSupported x s with ⟨hx, heq⟩ | ⟨hx, heq⟩ | ⟨hx, heq⟩ | ⟨hx, heq⟩ |
    ⟨hx, heq⟩ | ⟨hx, heq⟩ | ⟨hx, heq⟩ | ⟨hx, heq⟩ | ⟨hx, heq⟩ | ⟨hx, heq⟩
  · exact noted_addr (Or.inl hx) (Load.addrParam_go (Or.inl ⟨hx, heq.symm.trans h⟩))
  · exact noted_addr (Or.inr hx) (Load.addrParam_go (Or.inr ⟨hx, heq.symm.trans h⟩))
  · rw [← Turn.go.inj (heq.symm.trans h)]
    exact noted_ecn hx
  · obtain ⟨hothers, hinp⟩ := noted_of_type (c := c) (s := s) hx (by decide) (by decide)
    rcases Load.setPrimParam_go (heq.symm.trans h) with ⟨-, rfl⟩ | ⟨a, -, rfl⟩
    · have hframe := noted_of_frame (c := c) hx (by decide) s' s'.dests s'.vars s'.selected s'.sawAsconf
        s'.sawAsconfAck s'.gotChklist
      rw [hothers, hinp] at hframe
      exact hframe
    · have hframe := noted_of_frame (c := c) hx (by decide) s
        ((s.dests.setPrimaryAddr ((s.vars.name a).value c)).getD s.dests) (s.vars.name a)
        (s.selected ++ [(a, (s.dests.findnet ((s.vars.name a).value c)).map Dest.addr)]) s.sawAsconf
        s.sawAsconfAck s.gotChklist
      rw [hothers, hinp] at hframe
      exact hframe
  · rw [← Turn.go.inj (heq.symm.trans h)]
    exact noted_prsctp hx
  · exact noted_ext hx (heq.symm.trans h)
  · rw [Load.randomTurn_go (heq.symm.trans h)]
    exact noted_random hx
  · rw [Load.hmacTurn_go (heq.symm.trans h)]
    exact noted_hmacs hx
  · obtain ⟨hothers, hinp⟩ := noted_of_type (c := c) (s := s) hx (by decide) (by decide)
    obtain ⟨saw, sawAck, rfl⟩ := Load.chunksTurn_go (heq.symm.trans h)
    have hframe := noted_of_frame (c := c) hx (by decide) s s.dests s.vars s.selected saw sawAck true
    rw [hothers, hinp] at hframe
    exact hframe
  · rw [h] at heq
    split at heq
    · cases heq
    · rw [Turn.go.inj heq]
      exact noted_quiet hx

/-- A chunk type is read from one of some SUPPORTED-EXTENSIONS parameters. -/
def readIn (c : LoadCall) (xs : List Param) (chunk : BitVec 8) : Bool :=
  xs.any fun x => decide (x.type = supportedChunkExt) && (Load.extTypes c x).contains chunk

structure NotedAll (c : LoadCall) (xs : List Param) (s s' : Load) : Prop where
  ecn : s'.ecn = (s.ecn || xs.any fun x => x.type = ecnCapable)
  prsctp : s'.prsctp =
    (s.prsctp || ((xs.any fun x => x.type = prsctpSupported) || readIn c xs forwardCumTsn))
  auth : s'.auth = (s.auth || readIn c xs chunkAuthentication)
  asconf : s'.asconf = (s.asconf || readIn c xs chunkAsconf)
  asconfAck : s'.asconfAck = (s.asconfAck || readIn c xs chunkAsconfAck)
  reconfig : s'.reconfig = (s.reconfig || readIn c xs streamReset)
  nrsack : s'.nrsack = (s.nrsack || readIn c xs nrSelectiveAck)
  pktdrop : s'.pktdrop = (s.pktdrop || readIn c xs packetDropped)
  ndata : s'.ndata = (s.ndata || ndataRead c s.others s.inpNdata xs)
  gotRandom : s'.gotRandom = (s.gotRandom || xs.any fun x => x.type = randomParam)
  gotHmacs : s'.gotHmacs = (s.gotHmacs || xs.any fun x => x.type = hmacList)

theorem readIn_cons (c : LoadCall) (x : Param) (xs : List Param) (chunk : BitVec 8) :
    readIn c (x :: xs) chunk =
      ((decide (x.type = supportedChunkExt) && (Load.extTypes c x).contains chunk) || readIn c xs chunk) :=
  List.any_cons

theorem notedAll_scan {asconfSupported : Bool} {xs : List Param} (hxs : ∀ x ∈ xs, stops x = false)
    (h : scan (fun x s => s.turn c asconfSupported x) xs s = .ok s') : NotedAll c xs s s' := by
  induction xs generalizing s with
  | nil =>
    rw [← Except.ok.inj h]
    constructor <;> simp [readIn, ndataRead]
  | cons x xs ih =>
    rw [scan] at h
    cases hturn : s.turn c asconfSupported x with
    | stop => exact absurd hturn (Load.turn_of_stops.2 (hxs x List.mem_cons_self))
    | ret code =>
      rw [hturn] at h
      cases h
    | go s₁ =>
      rw [hturn] at h
      have hrest := ih (fun y hy => hxs y (List.mem_cons_of_mem _ hy)) h
      have hfirst := noted_turn hturn
      constructor
      · rw [hrest.ecn, hfirst.ecn, List.any_cons, Bool.or_assoc]
      · rw [hrest.prsctp, hfirst.prsctp, List.any_cons, readIn_cons]
        simp only [Bool.or_assoc, Bool.or_left_comm]
      · rw [hrest.auth, hfirst.auth, readIn_cons, Bool.or_assoc]
      · rw [hrest.asconf, hfirst.asconf, readIn_cons, Bool.or_assoc]
      · rw [hrest.asconfAck, hfirst.asconfAck, readIn_cons, Bool.or_assoc]
      · rw [hrest.reconfig, hfirst.reconfig, readIn_cons, Bool.or_assoc]
      · rw [hrest.nrsack, hfirst.nrsack, readIn_cons, Bool.or_assoc]
      · rw [hrest.pktdrop, hfirst.pktdrop, readIn_cons, Bool.or_assoc]
      · rw [hrest.ndata, hfirst.ndata, hfirst.others, hfirst.inpNdata, ndataRead, Bool.or_assoc]
      · rw [hrest.gotRandom, hfirst.gotRandom, List.any_cons, Bool.or_assoc]
      · rw [hrest.gotHmacs, hfirst.gotHmacs, List.any_cons, Bool.or_assoc]

theorem walkParams_noted {before : Features} {d : Dests} (h : walkParams c before d = .ok s) :
    ∃ d', takeSource c (markAll d) = .ok d' ∧ NotedAll c c.listed (.start c d' before.ndata) s := by
  obtain ⟨d', hsource, hscan⟩ := walkParams_ok h
  exact ⟨d', hsource, notedAll_scan (fun x hx => stops_of_mem_listed hx) hscan⟩

/-- The features as the code has noted them down. -/
structure Negotiated (c : LoadCall) (before after : Features) : Prop where
  ecn : after.ecn = (before.ecn && c.carries ecnCapable)
  prsctp : after.prsctp = (before.prsctp && (c.carries prsctpSupported || extRead c forwardCumTsn))
  auth : after.auth =
    (before.auth && extRead c chunkAuthentication && c.carries randomParam && c.carries hmacList)
  asconf : after.asconf =
    (before.asconf && after.auth && (extRead c chunkAsconf && (c.asconfAckGarbage || extRead c chunkAsconfAck)))
  reconfig : after.reconfig = (before.reconfig && extRead c streamReset)
  nrsack : after.nrsack = (before.nrsack && extRead c nrSelectiveAck)
  pktdrop : after.pktdrop = (before.pktdrop && extRead c packetDropped)
  ndata : after.ndata = (before.ndata || ndataRead c c.others c.useNdata c.listed)

/-- An accepted list that has ASCONF read has both chunk types protected. -/
theorem saw_of_check (h : s.check = 0) (hasconf : s.asconf = true) (hauth : s.auth = true) :
    s.sawAsconf = true ∧ s.sawAsconfAck = true := by
  unfold Load.check at h
  rw [hasconf, hauth] at h
  cases hsaw : s.sawAsconf with
  | false => simp [hsaw] at h
  | true =>
    cases hack : s.sawAsconfAck with
    | false => simp [hsaw, hack] at h
    | true => exact ⟨rfl, rfl⟩

theorem loadAddressesFromInit_negotiated {before : Features} {d : Dests} {r : Accepted}
    (h : loadAddressesFromInit c before d = .ok r) : Negotiated c before r.features := by
  obtain ⟨s, hwalk, hcheck, rfl⟩ := loadAddressesFromInit_ok h
  obtain ⟨d', -, hnoted⟩ := walkParams_noted hwalk
  have hauth : s.auth = extRead c chunkAuthentication := hnoted.auth
  have hrandom : s.gotRandom = c.carries randomParam := hnoted.gotRandom
  have hhmacs : s.gotHmacs = c.carries hmacList := hnoted.gotHmacs
  constructor
  · exact congrArg (before.ecn && ·) hnoted.ecn
  · exact congrArg (before.prsctp && ·) hnoted.prsctp
  · change (before.auth && !(!s.auth || !s.gotRandom || !s.gotHmacs)) = _
    rw [hauth, hrandom, hhmacs]
    simp only [Bool.not_or, Bool.not_not, Bool.and_assoc]
  · change (before.asconf && !(!s.asconf || !s.asconfAck ||
      !(before.auth && !(!s.auth || !s.gotRandom || !s.gotHmacs)) || !s.sawAsconf || !s.sawAsconfAck)) =
      (before.asconf && (before.auth && !(!s.auth || !s.gotRandom || !s.gotHmacs)) &&
        (extRead c chunkAsconf && (c.asconfAckGarbage || extRead c chunkAsconfAck)))
    have hasconf : s.asconf = extRead c chunkAsconf := hnoted.asconf
    have hack : s.asconfAck = (c.asconfAckGarbage || extRead c chunkAsconfAck) := hnoted.asconfAck
    rw [← hasconf, ← hack]
    cases hauth' : s.auth with
    | false => simp
    | true =>
      cases hasconf' : s.asconf with
      | false => simp
      | true =>
        obtain ⟨hsaw, hsawAck⟩ := saw_of_check hcheck hasconf' hauth'
        rw [hsaw, hsawAck]
        simp only [Bool.not_true, Bool.false_or, Bool.or_false, Bool.true_and, Bool.not_or, Bool.not_not]
        rw [Bool.and_assoc, Bool.and_comm s.asconfAck]
  · exact congrArg (before.reconfig && ·) hnoted.reconfig
  · exact congrArg (before.nrsack && ·) hnoted.nrsack
  · exact congrArg (before.pktdrop && ·) hnoted.pktdrop
  · exact hnoted.ndata

/-- Of a parameter that fits into the buffer nothing else than its bytes is read. -/
theorem extTypes_eq_bytes (h : x.plen ≤ paramBufferSize) : Load.extTypes c x = c.bytes x := by
  unfold Load.extTypes LoadCall.bytes
  apply List.map_congr_left
  intro i hi
  have hlt : 4 + i < min paramBufferSize x.plen := by
    have := List.mem_range.mp hi
    rw [Nat.min_eq_right h]
    omega
  rw [LoadCall.view, if_pos hlt, Nat.add_assoc]

theorem extRead_eq_names (h : ∀ x ∈ c.listed, x.type = supportedChunkExt → x.plen ≤ paramBufferSize)
    (chunk : BitVec 8) : extRead c chunk = c.names supportedChunkExt chunk := by
  unfold extRead LoadCall.names
  rw [Bool.eq_iff_iff, List.any_eq_true, List.any_eq_true]
  apply exists_congr
  intro x
  apply and_congr_right
  intro hx
  by_cases hext : x.type = supportedChunkExt
  · rw [extTypes_eq_bytes (h x hx hext)]
  · simp [hext]

/-- A parameter of the one call stands in the other. -/
theorem exists_restated {c' : LoadCall} (h : ∀ y, y ∈ c'.contents ↔ y ∈ c.contents) {x : Param}
    (hx : x ∈ c'.listed) : ∃ y ∈ c.listed, y.type = x.type ∧ y.plen = x.plen ∧ c.bytes y = c'.bytes x := by
  have hmem : (x.type, x.plen, c'.bytes x) ∈ c.contents := (h _).1 (List.mem_map_of_mem hx)
  obtain ⟨y, hy, heq⟩ := List.mem_map.1 hmem
  simp only [Prod.mk.injEq] at heq
  exact ⟨y, hy, heq⟩

theorem carries_congr {c' : LoadCall} (h : ∀ y, y ∈ c'.contents ↔ y ∈ c.contents) (t : ℕ) :
    c'.carries t = c.carries t := by
  have hmono : ∀ e e' : LoadCall, (∀ y, y ∈ e.contents ↔ y ∈ e'.contents) → e.carries t = true →
      e'.carries t = true := by
    intro e e' hsame he
    unfold LoadCall.carries at he ⊢
    simp only [List.any_eq_true, decide_eq_true_eq] at he ⊢
    obtain ⟨x, hx, ht⟩ := he
    obtain ⟨y, hy, htype, -, -⟩ := exists_restated hsame hx
    exact ⟨y, hy, htype.trans ht⟩
  rw [Bool.eq_iff_iff]
  exact ⟨hmono c' c h, hmono c c' fun y => (h y).symm⟩

theorem names_congr {c' : LoadCall} (h : ∀ y, y ∈ c'.contents ↔ y ∈ c.contents) (t : ℕ) (chunk : BitVec 8) :
    c'.names t chunk = c.names t chunk := by
  have hmono : ∀ e e' : LoadCall, (∀ y, y ∈ e.contents ↔ y ∈ e'.contents) → e.names t chunk = true →
      e'.names t chunk = true := by
    intro e e' hsame he
    unfold LoadCall.names at he ⊢
    simp only [List.any_eq_true, Bool.and_eq_true, decide_eq_true_eq] at he ⊢
    obtain ⟨x, hx, ht, hchunk⟩ := he
    obtain ⟨y, hy, htype, -, hbytes⟩ := exists_restated hsame hx
    exact ⟨y, hy, htype.trans ht, hbytes ▸ hchunk⟩
  rw [Bool.eq_iff_iff]
  exact ⟨hmono c' c h, hmono c c' fun y => (h y).symm⟩

/-- Only what the parameters say counts. -/
theorem announced_congr {c' : LoadCall} (h : c'.Restates c) (before : Features) :
    announced c' before = announced c before := by
  unfold announced
  simp only [carries_congr h.contents, names_congr h.contents, h.useNdata]

theorem sized_congr {c' : LoadCall} (h : c'.Restates c) (hc : c.Sized) : c'.Sized := by
  intro x hx
  obtain ⟨y, hy, htype, hplen, -⟩ := exists_restated h.contents hx
  rw [← htype, ← hplen]
  exact hc y hy

theorem chunkTypes_eq_bytes (h : 4 ≤ x.plen) : Load.chunkTypes c x = c.bytes x := by
  unfold Load.chunkTypes LoadCall.bytes
  rw [bodyLen, if_pos h]
  apply List.map_congr_left
  intro i hi
  have hlt : 4 + i < x.plen := by
    have := List.mem_range.mp hi
    omega
  rw [LoadCall.view, if_pos hlt, Nat.add_assoc]

/-- What a turn makes of the flags for CHUNKS. -/
theorem saw_turn {asconfSupported : Bool} (h : s.turn c asconfSupported x = .go s') :
    (s'.sawAsconf = s.sawAsconf ∧ s'.sawAsconfAck = s.sawAsconfAck) ∨
      (x.type = chunkList ∧ s'.sawAsconf = (s.sawAsconf || (Load.chunkTypes c x).contains chunkAsconf) ∧
        s'.sawAsconfAck = (s.sawAsconfAck || (Load.chunkTypes c x).contains chunkAsconfAck)) := by
  have haddr : ∀ {t t' : Load}, (c.heardAddr x = none ∧ t' = t) ∨
      (∃ a, c.heardAddr x = some a ∧ unicast a = false ∧ t' = { t with vars := t.vars.list a }) ∨
      (∃ a codeAdd codeOther, c.heardAddr x = some a ∧ unicast a = true ∧
        Load.takeAddr c { t with vars := t.vars.list a } a codeAdd codeOther = .go t') →
      t'.sawAsconf = t.sawAsconf ∧ t'.sawAsconfAck = t.sawAsconfAck := by
    intro t t' ht
    rcases ht with ⟨-, rfl⟩ | ⟨a, -, -, rfl⟩ | ⟨a, _, _, -, -, htake⟩
    · exact ⟨rfl, rfl⟩
    · exact ⟨rfl, rfl⟩
    · rcases Load.takeAddr_go htake with ⟨-, d, -, rfl⟩ | ⟨o, d, -, -, rfl⟩
      · exact ⟨rfl, rfl⟩
      · exact ⟨rfl, rfl⟩
  rcases Load.turn_cases c asconfSupported x s with ⟨hx, heq⟩ | ⟨hx, heq⟩ | ⟨-, heq⟩ | ⟨-, heq⟩ |
    ⟨-, heq⟩ | ⟨-, heq⟩ | ⟨-, heq⟩ | ⟨-, heq⟩ | ⟨hx, heq⟩ | ⟨-, heq⟩
  · exact .inl (haddr (Load.addrParam_go (.inl ⟨hx, heq.symm.trans h⟩)))
  · exact .inl (haddr (Load.addrParam_go (.inr ⟨hx, heq.symm.trans h⟩)))
  · rw [← Turn.go.inj (heq.symm.trans h)]
    exact .inl ⟨rfl, rfl⟩
  · rcases Load.setPrimParam_go (heq.symm.trans h) with ⟨-, rfl⟩ | ⟨a, -, rfl⟩
    · exact .inl ⟨rfl, rfl⟩
    · exact .inl ⟨rfl, rfl⟩
  · rw [← Turn.go.inj (heq.symm.trans h)]
    exact .inl ⟨rfl, rfl⟩
  · have hext := heq.symm.trans h
    unfold Load.extParam at hext
    split at hext
    · cases hext
    · rw [← Turn.go.inj hext]
      exact .inl ⟨rfl, rfl⟩
  · rw [Load.randomTurn_go (heq.symm.trans h)]
    exact .inl ⟨rfl, rfl⟩
  · rw [Load.hmacTurn_go (heq.symm.trans h)]
    exact .inl ⟨rfl, rfl⟩
  · have hchunks := heq.symm.trans h
    unfold Load.chunksTurn at hchunks
    split at hchunks
    · cases hchunks
    split at hchunks
    · rw [← Turn.go.inj hchunks]
      exact .inl ⟨rfl, rfl⟩
    split at hchunks
    · cases hchunks
    · rw [← Turn.go.inj hchunks]
      exact .inr ⟨hx, rfl, rfl⟩
  · rw [h] at heq
    split at heq
    · cases heq
    · rw [Turn.go.inj heq]
      exact .inl ⟨rfl, rfl⟩

/-- A chunk type that was seen is in a CHUNKS parameter. -/
theorem names_of_saw (hsized : c.Sized) {asconfSupported : Bool} {d : Dests} {ndata : Bool}
    (h : scan (fun x s => s.turn c asconfSupported x) c.listed (.start c d ndata) = .ok s) :
    (s.sawAsconf = true → c.names chunkList chunkAsconf = true) ∧
      (s.sawAsconfAck = true → c.names chunkList chunkAsconfAck = true) := by
  have hnames : ∀ {x chunk}, x ∈ c.listed → x.type = chunkList →
      (Load.chunkTypes c x).contains chunk = true → c.names chunkList chunk = true := by
    intro x chunk hx ht hchunk
    rw [chunkTypes_eq_bytes ((hsized x hx).1 ht)] at hchunk
    unfold LoadCall.names
    rw [List.any_eq_true]
    exact ⟨x, hx, by rw [ht, hchunk]; simp⟩
  have hstep : ∀ (pre : List Param) (x : Param) (s s' : Load), x ∈ c.listed →
      ((s.sawAsconf = true → c.names chunkList chunkAsconf = true) ∧
        (s.sawAsconfAck = true → c.names chunkList chunkAsconfAck = true)) →
      s.turn c asconfSupported x = .go s' →
      (s'.sawAsconf = true → c.names chunkList chunkAsconf = true) ∧
        (s'.sawAsconfAck = true → c.names chunkList chunkAsconfAck = true) := by
    intro pre x s s' hx hs hturn
    rcases saw_turn hturn with ⟨hsaw, hack⟩ | ⟨ht, hsaw, hack⟩
    · rw [hsaw, hack]
      exact hs
    · rw [hsaw, hack, Bool.or_eq_true, Bool.or_eq_true]
      exact ⟨fun h => h.elim hs.1 (hnames hx ht), fun h => h.elim hs.2 (hnames hx ht)⟩
  exact @scan_induction Load _ (fun _ s => (s.sawAsconf = true → c.names chunkList chunkAsconf = true) ∧
      (s.sawAsconfAck = true → c.names chunkList chunkAsconfAck = true)) _
    (fun x hx s => Load.turn_of_stops.2 (stops_of_mem_listed hx)) hstep [] _ _
    ⟨fun h => absurd h Bool.false_ne_true, fun h => absurd h Bool.false_ne_true⟩ h

theorem ndataRead_of_not_read {xs : List Param} (h : readIn c xs ndataChunk = false)
    (others : Addr → Option Other) (inp : Bool) : ndataRead c others inp xs = false := by
  induction xs generalizing others inp with
  | nil => rfl
  | cons x xs ih =>
    rw [readIn_cons, Bool.or_eq_false_iff] at h
    rw [ndataRead, h.1, Bool.false_and, Bool.false_or, ih h.2]

/-- Without a listed address `inp` stays what it is. -/
theorem ndataRead_of_no_addr {xs : List Param} (h : ∀ x ∈ xs, c.listedAddr x = none)
    (others : Addr → Option Other) (inp : Bool) :
    ndataRead c others inp xs = (readIn c xs ndataChunk && inp) := by
  induction xs with
  | nil => rfl
  | cons x xs ih =>
    have hx := h x List.mem_cons_self
    rw [ndataRead, othersAfter_of_none _ hx, inpAfter_of_none _ _ hx, readIn_cons, Bool.and_or_distrib_right,
      ih fun y hy => h y (List.mem_cons_of_mem _ hy)]

theorem LoadCall.Sized.extRead (h : c.Sized) (chunk : BitVec 8) :
    Nets.extRead c chunk = c.names supportedChunkExt chunk :=
  extRead_eq_names (fun x hx => (h x hx).2) chunk

theorem features_of_settled {before : Features} {d : Dests} {r : Accepted} (hsized : c.Sized)
    (hsettled : Settled c before) (h : loadAddressesFromInit c before d = .ok r) :
    r.features = announced c before := by
  have hcode := loadAddressesFromInit_negotiated h
  obtain ⟨s, hwalk, hcheck, rfl⟩ := loadAddressesFromInit_ok h
  obtain ⟨d', -, hscan⟩ := walkParams_ok hwalk
  obtain ⟨_, -, hnoted⟩ := walkParams_noted hwalk
  have hauth : (s.features before).auth = (announced c before).auth := by
    rw [hcode.auth, hsized.extRead]
    rfl
  have hasconf : (s.features before).asconf = (announced c before).asconf := by
    rw [hcode.asconf, hauth, hsized.extRead, hsized.extRead]
    change _ = (before.asconf && (announced c before).auth && c.names supportedChunkExt chunkAsconf &&
      c.names supportedChunkExt chunkAsconfAck && c.names chunkList chunkAsconf &&
      c.names chunkList chunkAsconfAck)
    cases hbefore : before.asconf with
    | false => rfl
    | true =>
      cases hannounced : (announced c before).auth with
      | false => rfl
      | true =>
        cases hnames : c.names supportedChunkExt chunkAsconf with
        | false => rfl
        | true =>
          have hack := hsettled.asconf hbefore hannounced hnames
          have hsasconf : s.asconf = true := by
            rw [hnoted.asconf]
            exact (Bool.false_or _).trans ((hsized.extRead chunkAsconf).trans hnames)
          have hsauth : s.auth = true := by
            have hboth : (before.auth && c.names supportedChunkExt chunkAuthentication && c.carries randomParam &&
                c.carries hmacList) = true := hannounced
            simp only [Bool.and_eq_true] at hboth
            rw [hnoted.auth]
            exact (Bool.false_or _).trans ((hsized.extRead chunkAuthentication).trans hboth.1.1.2)
          obtain ⟨hsaw, hsawAck⟩ := saw_of_check hcheck hsasconf hsauth
          obtain ⟨hlist, hlistAck⟩ := names_of_saw hsized hscan
          rw [hack, hlist hsaw, hlistAck hsawAck, Bool.or_true]
          rfl
  have hndata : (s.features before).ndata = (announced c before).ndata := by
    rw [hcode.ndata]
    change _ = (before.ndata || (c.names supportedChunkExt ndataChunk && c.useNdata))
    cases hbefore : before.ndata with
    | true => rfl
    | false =>
      rw [← hsized.extRead]
      cases hread : extRead c ndataChunk with
      | false => rw [ndataRead_of_not_read hread, Bool.false_and]
      | true =>
        rw [ndataRead_of_no_addr (hsettled.ndata hbefore ((hsized.extRead ndataChunk).symm.trans hread))]
        change (false || (extRead c ndataChunk && c.useNdata)) = _
        rw [hread]
  have hprsctp : (s.features before).prsctp = (announced c before).prsctp := by
    rw [hcode.prsctp, hsized.extRead]
    rfl
  have hreconfig : (s.features before).reconfig = (announced c before).reconfig := by
    rw [hcode.reconfig, hsized.extRead]
    rfl
  have hnrsack : (s.features before).nrsack = (announced c before).nrsack := by
    rw [hcode.nrsack, hsized.extRead]
    rfl
  have hpktdrop : (s.features before).pktdrop = (announced c before).pktdrop := by
    rw [hcode.pktdrop, hsized.extRead]
    rfl
  exact Features.ext hcode.ecn hprsctp hauth hasconf hreconfig hnrsack hpktdrop hndata

end Sctp.Nets
