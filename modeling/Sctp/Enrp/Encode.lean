import Sctp.Enrp.Bounds

/-! Pool elements as the registrar writes them, `util.c` and `parameters.c`, and what is read back. -/
namespace Sctp.Enrp

open Bytes (enc16)

def POLICY_ROUND_ROBIN : ℕ := 0x00000001
def POLICY_WEIGHTED_ROUND_ROBIN : ℕ := 0x00000002
def POLICY_RANDOM : ℕ := 0x00000003
def POLICY_WEIGHTED_RANDOM : ℕ := 0x00000004
def POLICY_LEAST_USED : ℕ := 0x40000001
def POLICY_LEAST_USED_W_DEGRADATION : ℕ := 0x40000002
def POLICY_PRIORITY_LEAST_USED : ℕ := 0x40000003
def POLICY_RANDOMIZED_LEAST_USED : ℕ := 0x40000004

def enc32 (n : ℕ) : Bytes := enc16 (n / 65536) ++ enc16 (n % 65536)

/-- `initParamIpv4Addr` and `initParamIpv6Addr` -/
def Address.bytes : Address → Bytes
  | .in4 addr => enc16 PARAM_IPV4_ADDR ++ (enc16 8 ++ addr)
  | .in6 addr => enc16 PARAM_IPV6_ADDR ++ (enc16 20 ++ addr)

/-- A transport parameter with a port, a number behind it and addresses. -/
def transportBytes (type port use : ℕ) (addrs : List Address) : Bytes :=
  enc16 type ++ (enc16 (8 + (addrs.map Address.size).sum) ++ (enc16 port ++ (enc16 use ++
    (addrs.map Address.bytes).flatten)))

/-- `transportAddressesToSendBuffer`. The slots in use are the first ones. -/
def transportAddressesToSendBuffer (addrs : List Address) (port transportUse : ℕ) (protocol : Protocol) :
    Option Bytes :=
  match protocol, addrs with
  | _, [] => none
  | .sctp, addrs => some (transportBytes PARAM_SCTP_TRANSPORT port transportUse addrs)
  | .tcp, a :: _ => some (transportBytes PARAM_TCP_TRANSPORT port 0 [a])
  | .udp, a :: _ => some (transportBytes PARAM_UDP_TRANSPORT port 0 [a])

/-- The policies whose parameter ends behind its type. -/
def isBare (policyType : ℕ) : Bool := policyType = POLICY_ROUND_ROBIN || policyType = POLICY_RANDOM

/-- The policies whose parameter has the load or weight behind its type. A degradation that is written behind
that lies where the next parameter goes. -/
def isLoaded (policyType : ℕ) : Bool :=
  policyType = POLICY_WEIGHTED_ROUND_ROBIN || policyType = POLICY_WEIGHTED_RANDOM ||
    policyType = POLICY_LEAST_USED || policyType = POLICY_RANDOMIZED_LEAST_USED ||
      policyType = POLICY_LEAST_USED_W_DEGRADATION || policyType = POLICY_PRIORITY_LEAST_USED

def initParamPoolMemberSelectionPolicy (policyType loadWeight : ℕ) : Option Bytes :=
  if isBare policyType then
    some (enc16 PARAM_POOL_MEMBER_SELECTION_POLICY ++ (enc16 8 ++ enc32 policyType))
  else if isLoaded policyType then
    some (enc16 PARAM_POOL_MEMBER_SELECTION_POLICY ++ (enc16 12 ++ (enc32 policyType ++ enc32 loadWeight)))
  else none

def poolElementToSendBuffer (pe : PoolElement) : Option Bytes := do
  let user ← transportAddressesToSendBuffer pe.peUserTransportAddr pe.peUserTransportPort pe.peUserTransportUse
    pe.peUserTransportProtocol
  let policy ← initParamPoolMemberSelectionPolicy pe.pePolicyID pe.pePolicyWeightLoad
  let asap ← transportAddressesToSendBuffer pe.peAsapTransportAddr pe.peAsapTransportPort 0 .sctp
  return enc16 PARAM_POOL_ELEMENT ++ (enc16 (16 + user.length + policy.length + asap.length) ++
    (enc32 pe.peIdentifier ++ (enc32 pe.peHomeRegistrarServer ++ (enc32 pe.peRegistrationLife ++
      (user ++ (policy ++ asap))))))

theorem Address.eight_le_size (a : Address) : 8 ≤ a.size := by
  cases a with
  | in4 addr => exact le_refl 8
  | in6 addr => exact (by decide : 8 ≤ 20)

theorem Address.size_le (a : Address) : a.size ≤ 20 := by
  cases a with
  | in4 addr => exact (by decide : 8 ≤ 20)
  | in6 addr => exact le_refl 20

/-- An address has as many bytes as its family says. -/
def Address.Formed : Address → Prop
  | .in4 addr => addr.length = 4
  | .in6 addr => addr.length = 16

structure PoolElement.Formed (pe : PoolElement) : Prop where
  peIdentifier_lt : pe.peIdentifier < 2 ^ 32
  peHomeRegistrarServer_lt : pe.peHomeRegistrarServer < 2 ^ 32
  peRegistrationLife_lt : pe.peRegistrationLife < 2 ^ 32
  peUserTransportPort_lt : pe.peUserTransportPort < 65536
  peUserTransportUse_lt : pe.peUserTransportUse < 65536
  peAsapTransportPort_lt : pe.peAsapTransportPort < 65536
  pePolicyID_lt : pe.pePolicyID < 2 ^ 32
  pePolicyWeightLoad_lt : pe.pePolicyWeightLoad < 2 ^ 32
  userAddr_length : pe.peUserTransportAddr.length ≤ MAX_ADDR_CNT
  asapAddr_length : pe.peAsapTransportAddr.length ≤ MAX_ADDR_CNT
  userAddr : ∀ a ∈ pe.peUserTransportAddr, a.Formed
  asapAddr : ∀ a ∈ pe.peAsapTransportAddr, a.Formed

@[simp] theorem length_enc32 (n : ℕ) : (enc32 n).length = 4 := rfl

theorem u32_enc32 {n : ℕ} (h : n < 2 ^ 32) (q : Bytes) : (enc32 n ++ q).u32 0 = n := by
  change ((n / 65536 / 256) % 256 * 256 + (n / 65536) % 256) * 65536 +
    ((n % 65536 / 256) % 256 * 256 + n % 65536 % 256) = n
  omega

theorem read_middle (p a q : Bytes) : (p ++ (a ++ q)).read p.length a.length = a := by
  have h := Bytes.read_append_right p (a ++ q) 0 a.length
  rw [Nat.add_zero] at h
  rw [h, Bytes.read_append_left]

theorem Address.Formed.length_bytes {a : Address} (h : a.Formed) : a.bytes.length = a.size := by
  cases a with
  | in4 addr =>
    have hlen : addr.length = 4 := h
    simp [Address.bytes, Address.size, hlen]
  | in6 addr =>
    have hlen : addr.length = 16 := h
    simp [Address.bytes, Address.size, hlen]

/-- A parameter whose length stays within the buffer is recognised. -/
theorem checkTLV_hdr {type len : ℕ} {q : Bytes} (htype : type < 65536) (hlen : len < 65536)
    (hle : len ≤ 4 + q.length) : checkTLV (enc16 type ++ (enc16 len ++ q)) = type := by
  have h2 : (enc16 type ++ (enc16 len ++ q)).u16 2 = len := Bytes.u16_enc16 hlen q
  rw [checkTLV, h2, if_neg, if_neg, Bytes.u16_enc16 htype]
  · simp only [List.length_append, Bytes.length_enc16]
    omega
  · simp only [List.length_append, Bytes.length_enc16]
    omega

theorem checkTLV_address {a : Address} (h : a.Formed) (q : Bytes) :
    checkTLV (a.bytes ++ q) = match a with
      | .in4 _ => PARAM_IPV4_ADDR
      | .in6 _ => PARAM_IPV6_ADDR := by
  cases a with
  | in4 addr =>
    have hlen : addr.length = 4 := h
    rw [Address.bytes, List.append_assoc, List.append_assoc]
    exact checkTLV_hdr (by decide) (by decide) (by rw [List.length_append]; omega)
  | in6 addr =>
    have hlen : addr.length = 16 := h
    rw [Address.bytes, List.append_assoc, List.append_assoc]
    exact checkTLV_hdr (by decide) (by decide) (by rw [List.length_append]; omega)

theorem isAddress_bytes {a : Address} (h : a.Formed) (q : Bytes) : IsAddress (a.bytes ++ q) := by
  rw [IsAddress, checkTLV_address h]
  cases a with
  | in4 addr => exact .inl rfl
  | in6 addr => exact .inr rfl

theorem addrSize_bytes {a : Address} (h : a.Formed) (q : Bytes) : addrSize (a.bytes ++ q) = a.size := by
  rw [addrSize, checkTLV_address h]
  cases a with
  | in4 addr => rfl
  | in6 addr => rfl

theorem whole_bytes {a : Address} (h : a.Formed) (q : Bytes) : Whole (a.bytes ++ q) := by
  rw [Whole, addrSize_bytes h, List.length_append, h.length_bytes]
  exact Nat.le_add_right _ _

theorem addressOf_bytes {a : Address} (h : a.Formed) (q : Bytes) : addressOf (a.bytes ++ q) = a := by
  rw [addressOf, checkTLV_address h]
  cases a with
  | in4 addr =>
    have hlen : addr.length = 4 := h
    have hread : (Address.bytes (.in4 addr) ++ q).read 4 4 = addr := by
      have hmid := read_middle (enc16 PARAM_IPV4_ADDR ++ enc16 8) addr q
      rw [hlen] at hmid
      rw [Address.bytes, List.append_assoc, List.append_assoc, ← List.append_assoc]
      exact hmid
    exact congrArg Address.in4 hread
  | in6 addr =>
    have hlen : addr.length = 16 := h
    have hread : (Address.bytes (.in6 addr) ++ q).read 4 16 = addr := by
      have hmid := read_middle (enc16 PARAM_IPV6_ADDR ++ enc16 20) addr q
      rw [hlen] at hmid
      rw [Address.bytes, List.append_assoc, List.append_assoc, ← List.append_assoc]
      exact hmid
    exact congrArg Address.in6 hread

theorem drop_bytes {a : Address} (h : a.Formed) (q : Bytes) : (a.bytes ++ q).drop a.size = q := by
  rw [← h.length_bytes, List.drop_left]

theorem length_flatten_bytes {as : List Address} (h : ∀ a ∈ as, a.Formed) :
    (as.map Address.bytes).flatten.length = (as.map Address.size).sum := by
  induction as with
  | nil => rfl
  | cons a as ih =>
    rw [List.forall_mem_cons] at h
    rw [List.map_cons, List.flatten_cons, List.length_append, h.1.length_bytes, ih h.2]
    rfl

/-- The walk over addresses that were written one behind the other. -/
theorem addresses_bytes {as : List Address} (h : ∀ a ∈ as, a.Formed) (q : Bytes) {len n pos : ℕ}
    (hlen : len = pos + (as.map Address.size).sum) (hn : as.length ≤ n) :
    (∀ c ∈ (addresses len n pos ((as.map Address.bytes).flatten ++ q)).1, Whole c) ∧
      kept true (addresses len n pos ((as.map Address.bytes).flatten ++ q)).1 = as ∧
      (addresses len n pos ((as.map Address.bytes).flatten ++ q)).2 = (len, q) := by
  induction as generalizing n pos with
  | nil =>
    have hpos : ¬ (pos < len ∧ IsAddress ([] ++ q)) := by
      rintro ⟨hlt, -⟩
      rw [hlen] at hlt
      exact absurd hlt (by simp)
    rw [List.map_nil, List.flatten_nil, addresses_end hpos]
    refine ⟨by simp, rfl, ?_⟩
    rw [hlen]
    rfl
  | cons a as ih =>
    rw [List.forall_mem_cons] at h
    obtain ⟨ha, has⟩ := h
    obtain ⟨m, rfl⟩ : ∃ m, n = m + 1 := ⟨n - 1, by rw [List.length_cons] at hn; omega⟩
    have hsize := a.eight_le_size
    rw [List.map_cons, List.sum_cons] at hlen
    rw [List.map_cons, List.flatten_cons, List.append_assoc]
    rw [addresses_cons (by omega) (isAddress_bytes ha _), addrSize_bytes ha, drop_bytes ha]
    rw [List.length_cons] at hn
    obtain ⟨hwhole, hkept, hrest⟩ := @ih has m (pos + a.size) (by omega) (by omega)
    refine ⟨?_, ?_, hrest⟩
    · rw [List.forall_mem_cons]
      exact ⟨whole_bytes ha _, hwhole⟩
    · rw [kept_cons, addressOf_bytes ha, hkept]
      rfl

theorem sum_size_le {as : List Address} (h : as.length ≤ MAX_ADDR_CNT) : (as.map Address.size).sum ≤ 640 := by
  have hle : (as.map Address.size).sum ≤ as.length * 20 := by
    clear h
    induction as with
    | nil => exact le_refl 0
    | cons a as ih =>
      have := a.size_le
      rw [List.map_cons, List.sum_cons, List.length_cons]
      omega
  have hmax : as.length ≤ 32 := h
  omega

theorem length_le_sum_size (as : List Address) : as.length ≤ (as.map Address.size).sum := by
  induction as with
  | nil => exact le_refl 0
  | cons a as ih =>
    have := a.eight_le_size
    rw [List.map_cons, List.sum_cons, List.length_cons]
    omega

section Transport

variable {type port use : ℕ} {addrs : List Address} {q : Bytes}

theorem length_transportBytes (haddrs : ∀ a ∈ addrs, a.Formed) :
    (transportBytes type port use addrs).length = 8 + (addrs.map Address.size).sum := by
  simp only [transportBytes, List.length_append, Bytes.length_enc16, length_flatten_bytes haddrs]
  omega

theorem transportBytes_u16 (hlen : 8 + (addrs.map Address.size).sum < 65536) :
    (transportBytes type port use addrs ++ q).u16 2 = 8 + (addrs.map Address.size).sum := by
  simp only [transportBytes, List.append_assoc]
  exact Bytes.u16_enc16 hlen (enc16 port ++ (enc16 use ++ ((addrs.map Address.bytes).flatten ++ q)))

theorem transportBytes_port (hport : port < 65536) : (transportBytes type port use addrs ++ q).u16 4 = port := by
  simp only [transportBytes, List.append_assoc]
  exact Bytes.u16_enc16 hport (enc16 use ++ ((addrs.map Address.bytes).flatten ++ q))

theorem transportBytes_use (huse : use < 65536) : (transportBytes type port use addrs ++ q).u16 6 = use := by
  simp only [transportBytes, List.append_assoc]
  exact Bytes.u16_enc16 huse ((addrs.map Address.bytes).flatten ++ q)

theorem transportBytes_drop :
    (transportBytes type port use addrs ++ q).drop 8 = (addrs.map Address.bytes).flatten ++ q := by
  rw [transportBytes, List.append_assoc, List.append_assoc, List.append_assoc, List.append_assoc]
  rfl

theorem checkTLV_transportBytes (htype : type < 65536) (haddrs : ∀ a ∈ addrs, a.Formed)
    (hlen : 8 + (addrs.map Address.size).sum < 65536) : checkTLV (transportBytes type port use addrs ++ q) = type := by
  rw [transportBytes, List.append_assoc, List.append_assoc]
  apply checkTLV_hdr htype hlen
  simp only [List.length_append, Bytes.length_enc16, length_flatten_bytes haddrs]
  omega

/-- An SCTP transport parameter is read as it was written. -/
theorem read_sctp (haddrs : ∀ a ∈ addrs, a.Formed) (hcnt : addrs.length ≤ MAX_ADDR_CNT) (hport : port < 65536)
    (huse : use < 65536) :
    sendBufferToTransportAddresses true (transportBytes PARAM_SCTP_TRANSPORT port use addrs ++ q) =
      .ok (some ⟨addrs, port, use, .sctp, 8 + (addrs.map Address.size).sum⟩) := by
  have hsum := sum_size_le hcnt
  have hlen : (transportBytes PARAM_SCTP_TRANSPORT port use addrs ++ q).length =
      8 + (addrs.map Address.size).sum + q.length := by
    rw [List.length_append, length_transportBytes haddrs]
  have hu2 : (transportBytes PARAM_SCTP_TRANSPORT port use addrs ++ q).u16 2 = 8 + (addrs.map Address.size).sum :=
    transportBytes_u16 (by omega)
  have hle := length_le_sum_size addrs
  obtain ⟨hwhole, hkept, hrest⟩ := @addresses_bytes addrs haddrs q _
    (8 + (addrs.map Address.size).sum) 8 rfl (by omega)
  rw [sendBufferToTransportAddresses_sctp (checkTLV_transportBytes (by decide) haddrs (by omega)),
    advance_eq (by omega), ok_bind, hu2, transportBytes_drop,
    parseAddrs_ok (by omega) hwhole (by rw [hkept]; simpa using hcnt), ok_bind, hrest, hkept, if_pos (le_refl _)]
  dsimp only
  rw [read16, if_pos (by omega), ok_bind, read16, if_pos (by omega), ok_bind, transportBytes_port hport,
    transportBytes_use huse, hlen, Nat.add_sub_cancel]
  rfl

/-- So is a TCP transport parameter. -/
theorem read_tcp {a : Address} (ha : a.Formed) (hport : port < 65536) :
    sendBufferToTransportAddresses true (transportBytes PARAM_TCP_TRANSPORT port 0 [a] ++ q) =
      .ok (some ⟨[a], port, 0, .tcp, 8 + a.size⟩) := by
  have haddrs : ∀ c ∈ [a], c.Formed := fun c hc => List.mem_singleton.1 hc ▸ ha
  have hsize := a.size_le
  have hsum : ([a].map Address.size).sum = a.size := by simp
  have hlen : (transportBytes PARAM_TCP_TRANSPORT port 0 [a] ++ q).length = 8 + a.size + q.length := by
    rw [List.length_append, length_transportBytes haddrs, hsum]
  have hdrop : (transportBytes PARAM_TCP_TRANSPORT port 0 [a] ++ q).drop 8 = a.bytes ++ q := by
    rw [transportBytes_drop]
    simp
  rw [sendBufferToTransportAddresses_tcp (checkTLV_transportBytes (by decide) haddrs (by omega)),
    advance_eq (by omega), ok_bind, hdrop, oneAddress_ok (whole_bytes ha q), ok_bind, if_pos (isAddress_bytes ha q),
    addressOf_bytes ha, addrSize_bytes ha, drop_bytes ha]
  dsimp only [written]
  rw [ok_bind, read16, if_pos (by omega), ok_bind, transportBytes_port hport, hlen, Nat.add_sub_cancel]
  rfl

/-- A UDP transport parameter with something behind it is refused. -/
theorem read_udp {a : Address} (ha : a.Formed) (hq : q ≠ []) :
    sendBufferToTransportAddresses true (transportBytes PARAM_UDP_TRANSPORT port 0 [a] ++ q) = .ok none := by
  have haddrs : ∀ c ∈ [a], c.Formed := fun c hc => List.mem_singleton.1 hc ▸ ha
  have hsize := a.size_le
  have hsum : ([a].map Address.size).sum = a.size := by simp
  have hlen : (transportBytes PARAM_UDP_TRANSPORT port 0 [a] ++ q).length = 8 + a.size + q.length := by
    rw [List.length_append, length_transportBytes haddrs, hsum]
  have hdrop : (transportBytes PARAM_UDP_TRANSPORT port 0 [a] ++ q).drop 8 = a.bytes ++ q := by
    rw [transportBytes_drop]
    simp
  rw [sendBufferToTransportAddresses_udp (checkTLV_transportBytes (by decide) haddrs (by omega)),
    advance_eq (by omega), ok_bind, hdrop, oneAddress_ok (whole_bytes ha q), ok_bind, addrSize_bytes ha, drop_bytes ha]
  dsimp only
  rw [if_pos (fun hnil => hq (List.eq_nil_of_length_eq_zero hnil))]
  rfl

end Transport

section Policy

variable {policyType loadWeight : ℕ} {policy q : Bytes}

structure PolicyRead (policyType loadWeight : ℕ) (policy q : Bytes) : Prop where
  recognised : checkTLV (policy ++ q) = PARAM_POOL_MEMBER_SELECTION_POLICY
  length : (policy ++ q).u16 2 = policy.length
  four_le : 8 ≤ policy.length
  lt : policy.length < 16
  id : (policy ++ q).u32 4 = policyType
  load : (if 12 ≤ policy.length then read32 (policy ++ q) 8 else .ok 0) =
    .ok (if isBare policyType then 0 else loadWeight)

theorem policy_read (h : initParamPoolMemberSelectionPolicy policyType loadWeight = some policy)
    (htype : policyType < 2 ^ 32) (hload : loadWeight < 2 ^ 32) : PolicyRead policyType loadWeight policy q := by
  unfold initParamPoolMemberSelectionPolicy at h
  by_cases hbare : isBare policyType
  · rw [if_pos hbare] at h
    cases h
    refine ⟨?_, ?_, (by decide : 8 ≤ 8), (by decide : 8 < 16), ?_, ?_⟩
    · rw [List.append_assoc, List.append_assoc]
      apply checkTLV_hdr (by decide) (by decide)
      rw [List.length_append, length_enc32]
      omega
    · rw [List.append_assoc, List.append_assoc]
      exact Bytes.u16_enc16 (by decide) (enc32 policyType ++ q)
    · rw [List.append_assoc, List.append_assoc]
      exact u32_enc32 htype q
    · rw [if_pos hbare]
      exact if_neg (by decide : ¬ 12 ≤ 8)
  · rw [if_neg hbare] at h
    by_cases hloaded : isLoaded policyType
    · rw [if_pos hloaded] at h
      cases h
      refine ⟨?_, ?_, (by decide : 8 ≤ 12), (by decide : 12 < 16), ?_, ?_⟩
      · rw [List.append_assoc, List.append_assoc]
        apply checkTLV_hdr (by decide) (by decide)
        simp only [List.length_append, length_enc32]
        omega
      · rw [List.append_assoc, List.append_assoc, List.append_assoc]
        exact Bytes.u16_enc16 (by decide) (enc32 policyType ++ (enc32 loadWeight ++ q))
      · rw [List.append_assoc, List.append_assoc, List.append_assoc]
        exact u32_enc32 htype (enc32 loadWeight ++ q)
      · refine (if_pos (by decide : 12 ≤ 12)).trans ?_
        rw [if_neg hbare, read32, if_pos]
        · rw [List.append_assoc, List.append_assoc, List.append_assoc]
          exact congrArg Except.ok (u32_enc32 hload q)
        · simp only [List.length_append, length_enc32, Bytes.length_enc16]
          omega
    · rw [if_neg hloaded] at h
      cases h

end Policy

def PoolElement.sentAddrs (pe : PoolElement) : List Address :=
  match pe.peUserTransportProtocol with
  | .sctp => pe.peUserTransportAddr
  | _ => pe.peUserTransportAddr.take 1

def PoolElement.sentUse (pe : PoolElement) : ℕ :=
  match pe.peUserTransportProtocol with
  | .sctp => pe.peUserTransportUse
  | _ => 0

def PoolElement.readBack (pe : PoolElement) : PoolElement :=
  { pe with
    peUserTransportUse := pe.sentUse
    peUserTransportAddr := pe.sentAddrs
    peAsapTransportPort := pe.peUserTransportPort
    peAsapTransportAddr := pe.sentAddrs
    pePolicyWeightLoad := if isBare pe.pePolicyID then 0 else pe.pePolicyWeightLoad
    pePolicyLoadDegradation := 0 }

/-- The header is right, and an element is read again as it was, with all bytes consumed. -/
def RoundTrips (pe : PoolElement) (bs : Bytes) : Prop :=
  bs.u16 2 = bs.length ∧ sendBufferToPoolElement true true bs = .ok (some (bs.length, some pe))

structure PoolElement.Plain (pe : PoolElement) : Prop where
  not_udp : pe.peUserTransportProtocol ≠ .udp
  tcp : pe.peUserTransportProtocol = .tcp → pe.peUserTransportAddr.length = 1 ∧ pe.peUserTransportUse = 0
  asapPort : pe.peAsapTransportPort = pe.peUserTransportPort
  asapAddr : pe.peAsapTransportAddr = pe.peUserTransportAddr
  load : isBare pe.pePolicyID → pe.pePolicyWeightLoad = 0
  degradation : pe.pePolicyLoadDegradation = 0

section RoundTrip

variable {pe : PoolElement} {bs : Bytes}

structure Written (pe : PoolElement) (bs user policy asap : Bytes) : Prop where
  user_eq : transportAddressesToSendBuffer pe.peUserTransportAddr pe.peUserTransportPort pe.peUserTransportUse
    pe.peUserTransportProtocol = some user
  policy_eq : initParamPoolMemberSelectionPolicy pe.pePolicyID pe.pePolicyWeightLoad = some policy
  asap_eq : asap = transportBytes PARAM_SCTP_TRANSPORT pe.peAsapTransportPort 0 pe.peAsapTransportAddr
  bytes_eq : bs = enc16 PARAM_POOL_ELEMENT ++ (enc16 (16 + user.length + policy.length + asap.length) ++
    (enc32 pe.peIdentifier ++ (enc32 pe.peHomeRegistrarServer ++ (enc32 pe.peRegistrationLife ++
      (user ++ (policy ++ asap))))))

theorem exists_written (h : poolElementToSendBuffer pe = some bs) : ∃ user policy asap, Written pe bs user policy asap := by
  obtain ⟨user, huser, h⟩ := Option.bind_eq_some_iff.1 h
  obtain ⟨policy, hpolicy, h⟩ := Option.bind_eq_some_iff.1 h
  obtain ⟨asap, hasap, h⟩ := Option.bind_eq_some_iff.1 h
  refine ⟨user, policy, asap, huser, hpolicy, ?_, (Option.some.inj h).symm⟩
  cases haddr : pe.peAsapTransportAddr with
  | nil =>
    rw [haddr, transportAddressesToSendBuffer] at hasap
    cases hasap
  | cons a as =>
    rw [haddr, transportAddressesToSendBuffer] at hasap
    · exact (Option.some.inj hasap).symm
    · simp

/-- The user transport parameter is written of one kind or another. -/
theorem user_cases {user : Bytes} (h : transportAddressesToSendBuffer pe.peUserTransportAddr pe.peUserTransportPort
    pe.peUserTransportUse pe.peUserTransportProtocol = some user) :
    (pe.peUserTransportProtocol = .sctp ∧
      user = transportBytes PARAM_SCTP_TRANSPORT pe.peUserTransportPort pe.peUserTransportUse pe.peUserTransportAddr) ∨
    ∃ a as, pe.peUserTransportAddr = a :: as ∧
      ((pe.peUserTransportProtocol = .tcp ∧ user = transportBytes PARAM_TCP_TRANSPORT pe.peUserTransportPort 0 [a]) ∨
        (pe.peUserTransportProtocol = .udp ∧ user = transportBytes PARAM_UDP_TRANSPORT pe.peUserTransportPort 0 [a])) := by
  cases haddr : pe.peUserTransportAddr with
  | nil =>
    rw [haddr, transportAddressesToSendBuffer] at h
    cases h
  | cons a as =>
    rw [haddr] at h
    cases hp : pe.peUserTransportProtocol with
    | sctp =>
      rw [hp, transportAddressesToSendBuffer] at h
      · exact .inl ⟨rfl, (Option.some.inj h).symm⟩
      · simp
    | tcp =>
      rw [hp, transportAddressesToSendBuffer] at h
      exact .inr ⟨a, as, rfl, .inl ⟨rfl, (Option.some.inj h).symm⟩⟩
    | udp =>
      rw [hp, transportAddressesToSendBuffer] at h
      exact .inr ⟨a, as, rfl, .inr ⟨rfl, (Option.some.inj h).symm⟩⟩

variable {user policy asap : Bytes}

theorem Written.length (hw : Written pe bs user policy asap) :
    bs.length = 16 + user.length + policy.length + asap.length := by
  rw [hw.bytes_eq]
  simp only [List.length_append, Bytes.length_enc16, length_enc32]
  omega

theorem Written.drop (hw : Written pe bs user policy asap) : bs.drop 16 = user ++ (policy ++ asap) := by
  rw [hw.bytes_eq]
  rfl

theorem Written.user_le (hw : Written pe bs user policy asap) (hf : pe.Formed) : user.length ≤ 648 := by
  have hsum := sum_size_le hf.userAddr_length
  rcases user_cases hw.user_eq with ⟨-, rfl⟩ | ⟨a, as, haddr, ⟨-, rfl⟩ | ⟨-, rfl⟩⟩
  · rw [length_transportBytes hf.userAddr]
    omega
  all_goals
    have ha : ∀ c ∈ [a], c.Formed := fun c hc =>
      hf.userAddr c (by rw [haddr, List.mem_singleton.1 hc]; exact List.mem_cons_self)
    have hsize := a.size_le
    rw [length_transportBytes ha]
    simp only [List.map_cons, List.map_nil, List.sum_cons, List.sum_nil]
    omega

theorem Written.asap_length (hw : Written pe bs user policy asap) (hf : pe.Formed) :
    asap.length = 8 + (pe.peAsapTransportAddr.map Address.size).sum := by
  rw [hw.asap_eq, length_transportBytes hf.asapAddr]

/-- The length that is written in the header. -/
theorem Written.length_lt (hw : Written pe bs user policy asap) (hf : pe.Formed) :
    16 + user.length + policy.length + asap.length < 65536 := by
  have huser := hw.user_le hf
  have hasap := hw.asap_length hf
  have hsum := sum_size_le hf.asapAddr_length
  have hpolicy := (policy_read (q := []) hw.policy_eq hf.pePolicyID_lt hf.pePolicyWeightLoad_lt).lt
  omega

theorem Written.u16_two (hw : Written pe bs user policy asap) (hf : pe.Formed) : bs.u16 2 = bs.length := by
  have hlt := hw.length_lt hf
  rw [hw.length, hw.bytes_eq]
  exact Bytes.u16_enc16 hlt (enc32 pe.peIdentifier ++ (enc32 pe.peHomeRegistrarServer ++
    (enc32 pe.peRegistrationLife ++ (user ++ (policy ++ asap)))))

theorem Written.checkTLV (hw : Written pe bs user policy asap) (hf : pe.Formed) : checkTLV bs = PARAM_POOL_ELEMENT := by
  have hlt := hw.length_lt hf
  rw [hw.bytes_eq]
  apply checkTLV_hdr (by decide) hlt
  simp only [List.length_append, length_enc32]
  omega

/-- What is read behind the user transport parameter. -/
theorem Written.elementTail (hw : Written pe bs user policy asap) (hf : pe.Formed) (t : TransportAddresses) :
    elementTail true true bs (policy ++ asap) t = .ok (some (bs.length, some
      { peIdentifier := pe.peIdentifier
        peHomeRegistrarServer := pe.peHomeRegistrarServer
        peRegistrationLife := pe.peRegistrationLife
        peUserTransportProtocol := t.protocol
        peUserTransportPort := t.port
        peUserTransportAddr := t.addrs
        peUserTransportUse := t.transportUse
        peAsapTransportPort := t.port
        peAsapTransportAddr := t.addrs
        pePolicyID := pe.pePolicyID
        pePolicyWeightLoad := if isBare pe.pePolicyID then 0 else pe.pePolicyWeightLoad
        pePolicyLoadDegradation := 0 })) := by
  have hp := policy_read (q := asap) hw.policy_eq hf.pePolicyID_lt hf.pePolicyWeightLoad_lt
  have hlen := hw.length
  have hasap := hw.asap_length hf
  have h8 := hp.four_le
  have hasapread : asapTransport true asap = .ok (some []) := by
    have hread := read_sctp (q := []) hf.asapAddr hf.asapAddr_length hf.peAsapTransportPort_lt
      (show 0 < 65536 by decide)
    rw [List.append_nil, ← hw.asap_eq, ← hasap] at hread
    rw [asapTransport, if_pos (by omega), hread, ok_bind]
    dsimp only
    rw [advance_eq (le_refl _), List.drop_length]
    rfl
  have hid : read32 bs 4 = .ok pe.peIdentifier := by
    rw [read32, if_pos (by omega), hw.bytes_eq]
    exact congrArg Except.ok (u32_enc32 hf.peIdentifier_lt (enc32 pe.peHomeRegistrarServer ++
      (enc32 pe.peRegistrationLife ++ (user ++ (policy ++ asap)))))
  have hhome : read32 bs 8 = .ok pe.peHomeRegistrarServer := by
    rw [read32, if_pos (by omega), hw.bytes_eq]
    exact congrArg Except.ok (u32_enc32 hf.peHomeRegistrarServer_lt (enc32 pe.peRegistrationLife ++
      (user ++ (policy ++ asap))))
  have hlife : read32 bs 12 = .ok pe.peRegistrationLife := by
    rw [read32, if_pos (by omega), hw.bytes_eq]
    exact congrArg Except.ok (u32_enc32 hf.peRegistrationLife_lt (user ++ (policy ++ asap)))
  have hpid : read32 (policy ++ asap) 4 = .ok pe.pePolicyID := by
    rw [read32, if_pos (by rw [List.length_append]; omega), hp.id]
  have hinit := hp.load
  have hlt : ¬ 16 ≤ policy.length := by
    have := hp.lt
    omega
  rw [Enrp.elementTail, if_pos hp.recognised, hp.length, advance_eq (by rw [List.length_append]; omega), ok_bind,
    List.drop_left, hasapread, ok_bind]
  dsimp only
  rw [if_pos rfl, initPoolElement, hp.length, hid, ok_bind, hlife, ok_bind, hhome, ok_bind, hpid, ok_bind, hinit, ok_bind,
    if_neg hlt, ok_bind]
  rfl

/-- What is read of an element that is not over UDP. -/
theorem Written.read (hw : Written pe bs user policy asap) (hf : pe.Formed) (hudp : pe.peUserTransportProtocol ≠ .udp) :
    sendBufferToPoolElement true true bs = .ok (some (bs.length, some pe.readBack)) := by
  have hlen := hw.length
  rw [sendBufferToPoolElement_eq (hw.checkTLV hf) (by omega), hw.drop]
  rcases user_cases hw.user_eq with ⟨hsctp, huser⟩ | ⟨a, as, haddr, ⟨htcp, huser⟩ | ⟨hudp', -⟩⟩
  · have hread := read_sctp (q := policy ++ asap) hf.userAddr hf.userAddr_length hf.peUserTransportPort_lt
      hf.peUserTransportUse_lt
    have hsize : 8 + (pe.peUserTransportAddr.map Address.size).sum = user.length := by
      rw [huser]
      exact (length_transportBytes hf.userAddr).symm
    rw [← huser, hsize] at hread
    rw [hread, ok_bind]
    dsimp only
    rw [advance_eq (by rw [List.length_append]; omega), ok_bind, List.drop_left, hw.elementTail hf]
    simp only [PoolElement.readBack, PoolElement.sentAddrs, PoolElement.sentUse, hsctp]
  · have ha : a.Formed := hf.userAddr a (by rw [haddr]; exact List.mem_cons_self)
    have hlenu : user.length = 8 + a.size := by
      rw [huser, length_transportBytes (fun c hc => List.mem_singleton.1 hc ▸ ha)]
      simp
    have hread := read_tcp (q := policy ++ asap) ha hf.peUserTransportPort_lt
    rw [← huser, ← hlenu] at hread
    rw [hread, ok_bind]
    dsimp only
    rw [advance_eq (by rw [List.length_append]; omega), ok_bind, List.drop_left, hw.elementTail hf]
    simp only [PoolElement.readBack, PoolElement.sentAddrs, PoolElement.sentUse, htcp, haddr, List.take_succ_cons,
      List.take_zero]
  · exact absurd hudp' hudp

theorem Written.read_udp (hw : Written pe bs user policy asap) (hf : pe.Formed)
    (hudp : pe.peUserTransportProtocol = .udp) : sendBufferToPoolElement true true bs = .ok none := by
  have hlen := hw.length
  rw [sendBufferToPoolElement_eq (hw.checkTLV hf) (by omega), hw.drop]
  rcases user_cases hw.user_eq with ⟨hsctp, -⟩ | ⟨a, as, haddr, ⟨htcp, -⟩ | ⟨-, huser⟩⟩
  · rw [hsctp] at hudp
    cases hudp
  · rw [htcp] at hudp
    cases hudp
  · have ha : a.Formed := hf.userAddr a (by rw [haddr]; exact List.mem_cons_self)
    have hnil : policy ++ asap ≠ [] := by
      have h8 := (policy_read (q := []) hw.policy_eq hf.pePolicyID_lt hf.pePolicyWeightLoad_lt).four_le
      rw [← List.length_pos_iff, List.length_append]
      omega
    rw [huser, Enrp.read_udp ha hnil]
    rfl

theorem readBack_eq_iff (hne : pe.peUserTransportAddr ≠ []) (hudp : pe.peUserTransportProtocol ≠ .udp) :
    pe.readBack = pe ↔ pe.Plain := by
  constructor
  · intro h
    have hload := congrArg PoolElement.pePolicyWeightLoad h
    have haddr := congrArg PoolElement.peUserTransportAddr h
    have huse := congrArg PoolElement.peUserTransportUse h
    have hasap := congrArg PoolElement.peAsapTransportAddr h
    refine ⟨hudp, fun htcp => ?_, (congrArg PoolElement.peAsapTransportPort h).symm, hasap.symm.trans haddr, fun hbare => ?_,
      (congrArg PoolElement.pePolicyLoadDegradation h).symm⟩
    · simp only [PoolElement.readBack, PoolElement.sentAddrs, htcp] at haddr
      simp only [PoolElement.readBack, PoolElement.sentUse, htcp] at huse
      have hlen := congrArg List.length haddr
      rw [List.length_take] at hlen
      have hpos := List.length_pos_iff.2 hne
      exact ⟨by omega, huse.symm⟩
    · simp only [PoolElement.readBack, hbare, if_true] at hload
      exact hload.symm
  · intro h
    obtain ⟨pid, home, life, proto, port, addr, use, aport, aaddr, policyId, load, deg⟩ := pe
    have hport : aport = port := h.asapPort
    have haddr : aaddr = addr := h.asapAddr
    have hdeg : deg = 0 := h.degradation
    have hload : isBare policyId → load = 0 := h.load
    have htcp : proto = .tcp → addr.length = 1 ∧ use = 0 := h.tcp
    subst hport haddr hdeg
    have hl : (if isBare policyId then 0 else load) = load := by
      split
      · exact (hload (by assumption)).symm
      · rfl
    cases proto with
    | sctp => simp only [PoolElement.readBack, PoolElement.sentAddrs, PoolElement.sentUse, hl]
    | tcp =>
      obtain ⟨hlen, rfl⟩ := htcp rfl
      simp only [PoolElement.readBack, PoolElement.sentAddrs, PoolElement.sentUse, hl, List.take_of_length_le hlen.le]
    | udp => exact absurd rfl hudp

/-- An element that was written is read as it was exactly when it is plain. -/
theorem roundTrips_iff (hf : pe.Formed) (h : poolElementToSendBuffer pe = some bs) : RoundTrips pe bs ↔ pe.Plain := by
  obtain ⟨user, policy, asap, hw⟩ := exists_written h
  have hlen := hw.u16_two hf
  have hne : pe.peUserTransportAddr ≠ [] := by
    intro hnil
    have huser := hw.user_eq
    rw [hnil, transportAddressesToSendBuffer] at huser
    cases huser
  unfold RoundTrips
  by_cases hudp : pe.peUserTransportProtocol = .udp
  · refine iff_of_false ?_ fun hplain => hplain.not_udp hudp
    rintro ⟨-, hread⟩
    rw [hw.read_udp hf hudp] at hread
    cases hread
  · rw [hw.read hf hudp, ← readBack_eq_iff hne hudp]
    simp only [hlen, true_and, Except.ok.injEq, Option.some.injEq, Prod.mk.injEq]

end RoundTrip

/-- An element over SCTP whose ASAP transport has another port than its user transport. -/
def asapElsewhere : PoolElement :=
  { peIdentifier := 1, peHomeRegistrarServer := 2, peRegistrationLife := 3, peUserTransportProtocol := .sctp
    peUserTransportPort := 7, peUserTransportAddr := [.in4 [10, 0, 0, 1]], peUserTransportUse := 1
    peAsapTransportPort := 3863, peAsapTransportAddr := [.in4 [10, 0, 0, 1]], pePolicyID := POLICY_ROUND_ROBIN
    pePolicyWeightLoad := 0, pePolicyLoadDegradation := 0 }

theorem asapElsewhere_formed : asapElsewhere.Formed := by
  constructor <;> simp [asapElsewhere, Address.Formed, MAX_ADDR_CNT, POLICY_ROUND_ROBIN]

theorem roundTrips_iff_elsewhere : ∃ bs, poolElementToSendBuffer asapElsewhere = some bs ∧
    (RoundTrips asapElsewhere bs ↔ asapElsewhere.Plain) :=
  ⟨_, rfl, roundTrips_iff asapElsewhere_formed rfl⟩

/-- The port of the ASAP transport is not read again. -/
theorem not_roundTrips : ∃ bs, asapElsewhere.Formed ∧ poolElementToSendBuffer asapElsewhere = some bs ∧
    ¬ RoundTrips asapElsewhere bs := by
  refine ⟨_, asapElsewhere_formed, rfl, ?_⟩
  rintro ⟨-, hread⟩
  revert hread
  decide +kernel

end Sctp.Enrp
