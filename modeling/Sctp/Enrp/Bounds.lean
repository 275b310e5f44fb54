import Sctp.Enrp.Params

/-! The buffers that the parsers of transport addresses and pool elements read within their bounds. -/
namespace Sctp.Enrp

def IsAddress (b : Bytes) : Prop := checkTLV b = PARAM_IPV4_ADDR ∨ checkTLV b = PARAM_IPV6_ADDR

instance (b : Bytes) : Decidable (IsAddress b) := inferInstanceAs (Decidable (_ ∨ _))

def addrSize (b : Bytes) : ℕ :=
  if checkTLV b = PARAM_IPV4_ADDR then 8 else if checkTLV b = PARAM_IPV6_ADDR then 20 else 0

/-- The address at the front lies in the buffer with its whole structure. -/
def Whole (b : Bytes) : Prop := addrSize b ≤ b.length

instance (b : Bytes) : Decidable (Whole b) := inferInstanceAs (Decidable (_ ≤ _))

def addressOf (b : Bytes) : Address :=
  if checkTLV b = PARAM_IPV4_ADDR then .in4 (b.read 4 4) else .in6 (b.read 4 16)

/-- The addresses one behind the other, from a position below `len` on, where they lie, the position
behind them and what lies there. -/
def addresses (len : ℕ) : ℕ → ℕ → Bytes → List Bytes × ℕ × Bytes
  | 0, pos, b => ([], pos, b)
  | n + 1, pos, b =>
    if pos < len ∧ IsAddress b then
      (b :: (addresses len n (pos + addrSize b) (b.drop (addrSize b))).1,
        (addresses len n (pos + addrSize b) (b.drop (addrSize b))).2)
    else ([], pos, b)

def isKept (useLoopback : Bool) (a : Address) : Bool := !(!useLoopback && a.isLoopback)

def kept (useLoopback : Bool) (bs : List Bytes) : List Address := (bs.map addressOf).filter (isKept useLoopback)

def sctpAddresses (b : Bytes) : List Bytes × ℕ × Bytes := addresses (b.u16 2) (b.u16 2) 8 (b.drop 8)

def TransportFits (useLoopback : Bool) (b : Bytes) : Prop :=
  if checkTLV b = PARAM_SCTP_TRANSPORT then
    8 ≤ b.length ∧ (∀ c ∈ (sctpAddresses b).1, Whole c) ∧ (kept useLoopback (sctpAddresses b).1).length ≤ MAX_ADDR_CNT
  else if checkTLV b = PARAM_TCP_TRANSPORT then 8 ≤ b.length ∧ IsAddress (b.drop 8) ∧ Whole (b.drop 8)
  else if checkTLV b = PARAM_UDP_TRANSPORT then 8 < b.length ∧ Whole (b.drop 8)
  else True

/-- What lies behind a transport parameter that is taken. -/
def behind (b : Bytes) : Option Bytes :=
  if checkTLV b = PARAM_SCTP_TRANSPORT then
    if b.u16 2 ≤ (sctpAddresses b).2.1 then some (sctpAddresses b).2.2 else none
  else if checkTLV b = PARAM_TCP_TRANSPORT then some ((b.drop 8).drop (addrSize (b.drop 8)))
  else if checkTLV b = PARAM_UDP_TRANSPORT then
    if (b.drop 8).drop (addrSize (b.drop 8)) = [] then some [] else none
  else none

/-- What must follow the user transport: the policy with its type, and where something lies behind it an ASAP
transport parameter that fits. -/
def PolicyFits (useLoopback alloc : Bool) (b : Bytes) : Prop :=
  checkTLV b = PARAM_POOL_MEMBER_SELECTION_POLICY →
    (b.drop (b.u16 2) ≠ [] → TransportFits useLoopback (b.drop (b.u16 2))) ∧
      (alloc = true → (b.drop (b.u16 2) = [] ∨ (behind (b.drop (b.u16 2))).isSome) → 8 ≤ b.length)

def ElementFits (useLoopback alloc : Bool) (b : Bytes) : Prop :=
  checkTLV b = PARAM_POOL_ELEMENT →
    16 ≤ b.length ∧ TransportFits useLoopback (b.drop 16) ∧
      ∀ c, behind (b.drop 16) = some c → PolicyFits useLoopback alloc c

def Fails {α : Type} (x : Except Fault α) : Prop := ∃ f, x = .error f

theorem Fails.bind {α β : Type} {x : Except Fault α} (h : Fails x) (f : α → Except Fault β) : Fails (x >>= f) := by
  obtain ⟨e, rfl⟩ := h
  exact ⟨e, rfl⟩

@[simp] theorem ok_bind {α β : Type} (a : α) (f : α → Except Fault β) : ((.ok a : Except Fault α) >>= f) = f a := rfl

theorem advance_eq {b : Bytes} {n : ℕ} (h : n ≤ b.length) : advance b n = .ok (b.drop n) := if_pos h

theorem advance_fails {b : Bytes} {n : ℕ} (h : ¬ n ≤ b.length) : Fails (advance b n) := ⟨.wrap, if_neg h⟩

theorem addressAt_ok {b : Bytes} (h : IsAddress b) (hw : Whole b) :
    addressAt b = .ok (some (addressOf b, b.drop (addrSize b))) := by
  unfold addressAt addressOf
  unfold Whole addrSize at hw
  unfold addrSize
  by_cases h4 : checkTLV b = PARAM_IPV4_ADDR
  · rw [if_pos h4] at hw
    rw [if_pos h4, if_pos h4, if_pos h4, advance_eq hw, readBytes, if_pos hw]
    rfl
  · have h6 := h.resolve_left h4
    rw [if_neg h4, if_pos h6] at hw
    rw [if_neg h4, if_neg h4, if_neg h4, if_pos h6, if_pos h6, advance_eq hw, readBytes, if_pos hw]
    rfl

theorem addressAt_fails {b : Bytes} (h : IsAddress b) (hw : ¬ Whole b) : Fails (addressAt b) := by
  unfold addressAt
  unfold Whole addrSize at hw
  by_cases h4 : checkTLV b = PARAM_IPV4_ADDR
  · rw [if_pos h4] at hw
    rw [if_pos h4]
    exact (advance_fails hw).bind _
  · have h6 := h.resolve_left h4
    rw [if_neg h4, if_pos h6] at hw
    rw [if_neg h4, if_pos h6]
    exact (advance_fails hw).bind _

theorem addressAt_none {b : Bytes} (h : ¬ IsAddress b) : addressAt b = .ok none := by
  unfold IsAddress at h
  rw [not_or] at h
  rw [addressAt, if_neg h.1, if_neg h.2]
  rfl

theorem addrSize_of_not {b : Bytes} (h : ¬ IsAddress b) : addrSize b = 0 := by
  unfold IsAddress at h
  rw [not_or] at h
  rw [addrSize, if_neg h.1, if_neg h.2]

theorem whole_of_not {b : Bytes} (h : ¬ IsAddress b) : Whole b := by
  rw [Whole, addrSize_of_not h]
  exact Nat.zero_le _

theorem size_addressOf {b : Bytes} (h : IsAddress b) : (addressOf b).size = addrSize b := by
  unfold addressOf addrSize
  by_cases h4 : checkTLV b = PARAM_IPV4_ADDR
  · rw [if_pos h4, if_pos h4]
    rfl
  · rw [if_neg h4, if_neg h4, if_pos (h.resolve_left h4)]
    rfl

theorem eight_le_addrSize {b : Bytes} (h : IsAddress b) : 8 ≤ addrSize b := by
  unfold addrSize
  by_cases h4 : checkTLV b = PARAM_IPV4_ADDR
  · rw [if_pos h4]
  · rw [if_neg h4, if_pos (h.resolve_left h4)]
    omega

theorem kept_cons (useLoopback : Bool) (b : Bytes) (bs : List Bytes) :
    kept useLoopback (b :: bs) =
      if isKept useLoopback (addressOf b) then addressOf b :: kept useLoopback bs else kept useLoopback bs := by
  rw [kept, List.map_cons, List.filter_cons]
  rfl

section Loop

variable {useLoopback : Bool} {len : ℕ}

theorem addresses_cons {n pos : ℕ} {b : Bytes} (hpos : pos < len) (h : IsAddress b) :
    addresses len (n + 1) pos b = (b :: (addresses len n (pos + addrSize b) (b.drop (addrSize b))).1,
      (addresses len n (pos + addrSize b) (b.drop (addrSize b))).2) := by
  rw [addresses, if_pos ⟨hpos, h⟩]

theorem addresses_end {n pos : ℕ} {b : Bytes} (h : ¬ (pos < len ∧ IsAddress b)) :
    addresses len n pos b = ([], pos, b) := by
  cases n with
  | zero => rfl
  | succ n => rw [addresses, if_neg h]

theorem parseAddrs_end {n pos : ℕ} {b : Bytes} {addr : List Address} (hpos : ¬ pos < len) :
    parseAddrs useLoopback len 0 (n + 1) pos b addr = .ok (some (b, addr)) := by
  rw [parseAddrs, if_neg hpos]

theorem parseAddrs_other {n pos : ℕ} {b : Bytes} {addr : List Address} (hpos : pos < len) (h : ¬ IsAddress b) :
    parseAddrs useLoopback len 0 (n + 1) pos b addr = .ok none := by
  rw [parseAddrs, if_pos hpos, if_neg (Nat.not_lt_zero _), addressAt_none h]
  rfl

/-- One turn of the loop, at an address. -/
theorem parseAddrs_address {n pos : ℕ} {b : Bytes} {addr : List Address} (hpos : pos < len) (h : IsAddress b)
    (hw : Whole b) :
    parseAddrs useLoopback len 0 (n + 1) pos b addr =
      if isKept useLoopback (addressOf b) then
        if addr.length < MAX_ADDR_CNT then
          parseAddrs useLoopback len 0 n (pos + addrSize b) (b.drop (addrSize b)) (addr ++ [addressOf b])
        else .error .overflow
      else parseAddrs useLoopback len 0 n (pos + addrSize b) (b.drop (addrSize b)) addr := by
  rw [parseAddrs, if_pos hpos, if_neg (Nat.not_lt_zero _), addressAt_ok h hw, ok_bind]
  dsimp only
  rw [size_addressOf h, isKept]
  cases !useLoopback && (addressOf b).isLoopback <;> rfl

theorem parseAddrs_ok {n pos : ℕ} {b : Bytes} {addr : List Address} (hn : len ≤ pos + n)
    (hwhole : ∀ c ∈ (addresses len n pos b).1, Whole c)
    (hcnt : addr.length + (kept useLoopback (addresses len n pos b).1).length ≤ MAX_ADDR_CNT) :
    parseAddrs useLoopback len 0 (n + 1) pos b addr =
      .ok (if len ≤ (addresses len n pos b).2.1 then
        some ((addresses len n pos b).2.2, addr ++ kept useLoopback (addresses len n pos b).1) else none) := by
  induction n generalizing pos b addr with
  | zero =>
    have hpos : ¬ pos < len := by omega
    rw [parseAddrs_end hpos, addresses_end (fun h => hpos h.1), if_pos (show len ≤ pos by omega)]
    simp [kept]
  | succ n ih =>
    by_cases hpos : pos < len
    · by_cases h : IsAddress b
      · have hsize := eight_le_addrSize h
        rw [addresses_cons hpos h] at hwhole hcnt ⊢
        dsimp only at hwhole hcnt ⊢
        rw [kept_cons] at hcnt ⊢
        have hrest := fun c hc => hwhole c (List.mem_cons_of_mem b hc)
        rw [parseAddrs_address hpos h (hwhole b List.mem_cons_self)]
        by_cases hk : isKept useLoopback (addressOf b) = true
        · rw [if_pos hk, List.length_cons] at hcnt
          rw [if_pos hk, if_pos hk, if_pos (by omega), ih (by omega) hrest]
          · rw [List.append_assoc]
            rfl
          · rw [List.length_append, List.length_singleton]
            omega
        · rw [if_neg hk] at hcnt
          rw [if_neg hk, if_neg hk, ih (by omega) hrest hcnt]
      · rw [parseAddrs_other hpos h, addresses_end (fun hc => h hc.2), if_neg (show ¬ len ≤ pos by omega)]
    · rw [parseAddrs_end hpos, addresses_end (fun h => hpos h.1), if_pos (show len ≤ pos by omega)]
      simp [kept]

theorem parseAddrs_fails {n pos : ℕ} {b : Bytes} {addr : List Address}
    (h : ¬ ((∀ c ∈ (addresses len n pos b).1, Whole c) ∧
      addr.length + (kept useLoopback (addresses len n pos b).1).length ≤ MAX_ADDR_CNT))
    (haddr : addr.length ≤ MAX_ADDR_CNT) :
    Fails (parseAddrs useLoopback len 0 (n + 1) pos b addr) := by
  induction n generalizing pos b addr with
  | zero => exact absurd ⟨by simp [addresses], by simpa [addresses, kept] using haddr⟩ h
  | succ n ih =>
    by_cases hb : pos < len ∧ IsAddress b
    · obtain ⟨hpos, hb⟩ := hb
      rw [addresses_cons hpos hb] at h
      dsimp only at h
      by_cases hw : Whole b
      · rw [parseAddrs_address hpos hb hw]
        rw [kept_cons, List.forall_mem_cons] at h
        by_cases hk : isKept useLoopback (addressOf b) = true
        · rw [if_pos hk]
          by_cases hlt : addr.length < MAX_ADDR_CNT
          · rw [if_pos hlt]
            apply ih
            · intro hrest
              apply h
              rw [if_pos hk, List.length_cons]
              rw [List.length_append, List.length_singleton] at hrest
              exact ⟨⟨hw, hrest.1⟩, by omega⟩
            · rw [List.length_append, List.length_singleton]
              omega
          · exact ⟨.overflow, if_neg hlt⟩
        · rw [if_neg hk]
          refine ih (fun hrest => h ?_) haddr
          rw [if_neg hk]
          exact ⟨⟨hw, hrest.1⟩, hrest.2⟩
      · rw [parseAddrs, if_pos hpos, if_neg (Nat.not_lt_zero _)]
        exact (addressAt_fails hb hw).bind _
    · rw [addresses_end hb] at h
      exact absurd ⟨by simp, by simpa [kept] using haddr⟩ h

end Loop

section Transport

variable {useLoopback : Bool} {b : Bytes}

theorem checkTLV_cases (b : Bytes) : checkTLV b = 0 ∨ (4 ≤ b.length ∧ b.u16 2 ≤ b.length ∧ checkTLV b = b.u16 0) := by
  unfold checkTLV
  by_cases h4 : b.length < 4
  · exact .inl (if_pos h4)
  · rw [if_neg h4]
    by_cases hlen : b.length < b.u16 2
    · exact .inl (if_pos hlen)
    · exact .inr ⟨by omega, by omega, if_neg hlen⟩

/-- What is known of a buffer whose parameter is recognised. -/
theorem checkTLV_spec {n : ℕ} (h : checkTLV b = n) (hn : n ≠ 0) :
    4 ≤ b.length ∧ b.u16 2 ≤ b.length ∧ b.u16 0 = n := by
  rcases checkTLV_cases b with h0 | ⟨h4, hlen, heq⟩
  · exact absurd (h.symm.trans h0) hn
  · exact ⟨h4, hlen, heq.symm.trans h⟩

theorem sendBufferToTransportAddresses_sctp (h : checkTLV b = PARAM_SCTP_TRANSPORT) :
    sendBufferToTransportAddresses useLoopback b = (do
      let b' ← advance b 8
      match ← parseAddrs useLoopback (b.u16 2) 0 (b.u16 2 + 1) 8 b' [] with
      | none => return none
      | some (b'', addr) => return some ⟨addr, ← read16 b 4, ← read16 b 6, .sctp, b.length - b''.length⟩) := by
  obtain ⟨h4, -, htype⟩ := checkTLV_spec h (by decide)
  have h4' : ¬ b.length < 4 := by omega
  unfold sendBufferToTransportAddresses
  exact (if_neg h4').trans ((if_pos htype).trans (if_pos h))

theorem sendBufferToTransportAddresses_tcp (h : checkTLV b = PARAM_TCP_TRANSPORT) :
    sendBufferToTransportAddresses useLoopback b = (do
      let b' ← advance b 8
      let (a, b'') ← oneAddress b'
      return some ⟨[← written a], ← read16 b 4, 0, .tcp, b.length - b''.length⟩) := by
  obtain ⟨h4, -, htype⟩ := checkTLV_spec h (by decide)
  rw [sendBufferToTransportAddresses, if_neg (by omega), if_neg (by rw [htype]; decide), if_pos htype, if_pos h]

theorem sendBufferToTransportAddresses_udp (h : checkTLV b = PARAM_UDP_TRANSPORT) :
    sendBufferToTransportAddresses useLoopback b = (do
      let b' ← advance b 8
      let (a, b'') ← oneAddress b'
      if b''.length ≠ 0 then return none
      else return some ⟨[← written a], ← read16 b 4, 0, .udp, b.length - b''.length⟩) := by
  obtain ⟨h4, -, htype⟩ := checkTLV_spec h (by decide)
  rw [sendBufferToTransportAddresses, if_neg (by omega), if_neg (by rw [htype]; decide),
    if_neg (by rw [htype]; decide), if_pos htype, if_pos h]

theorem sendBufferToTransportAddresses_other (hs : checkTLV b ≠ PARAM_SCTP_TRANSPORT)
    (ht : checkTLV b ≠ PARAM_TCP_TRANSPORT) (hu : checkTLV b ≠ PARAM_UDP_TRANSPORT) :
    sendBufferToTransportAddresses useLoopback b = .ok none := by
  rw [sendBufferToTransportAddresses, if_neg hs, if_neg ht, if_neg hu, ite_self, ite_self, ite_self, ite_self]
  rfl

theorem addresses_suffix (len n pos : ℕ) (b : Bytes) : (addresses len n pos b).2.2 <:+ b := by
  induction n generalizing pos b with
  | zero => exact List.suffix_refl b
  | succ n ih =>
    by_cases h : pos < len ∧ IsAddress b
    · rw [addresses_cons h.1 h.2]
      exact (ih _ _).trans (List.drop_suffix _ _)
    · rw [addresses_end h]

theorem oneAddress_ok (hw : Whole b) :
    oneAddress b = .ok (if IsAddress b then some (addressOf b) else none, b.drop (addrSize b)) := by
  rw [oneAddress]
  by_cases h : IsAddress b
  · rw [addressAt_ok h hw, if_pos h]
    rfl
  · rw [addressAt_none h, if_neg h, addrSize_of_not h, List.drop_zero]
    rfl

theorem oneAddress_fails (hw : ¬ Whole b) : Fails (oneAddress b) := by
  have h : IsAddress b := by
    by_contra h
    exact hw (whole_of_not h)
  exact (addressAt_fails h hw).bind _

theorem one_le_max : 1 ≤ MAX_ADDR_CNT := by decide

/-- A parameter that fits is taken, or refused with -1. -/
theorem transport_ok (h : TransportFits useLoopback b) :
    (behind b = none ∧ sendBufferToTransportAddresses useLoopback b = .ok none) ∨
      ∃ c t, behind b = some c ∧ sendBufferToTransportAddresses useLoopback b = .ok (some t) ∧ c <:+ b ∧
        t.length = b.length - c.length ∧ t.addrs.length ≤ MAX_ADDR_CNT := by
  unfold TransportFits at h
  unfold behind
  by_cases hs : checkTLV b = PARAM_SCTP_TRANSPORT
  · rw [if_pos hs] at h ⊢
    obtain ⟨h8, hwhole, hcnt⟩ := h
    rw [sendBufferToTransportAddresses_sctp hs, advance_eq h8, ok_bind]
    rw [parseAddrs_ok (by omega) hwhole (by simpa [sctpAddresses] using hcnt), ok_bind]
    unfold sctpAddresses
    by_cases hend : b.u16 2 ≤ (addresses (b.u16 2) (b.u16 2) 8 (b.drop 8)).2.1
    · right
      rw [if_pos hend, if_pos hend]
      dsimp only
      rw [read16, if_pos (by omega), ok_bind, read16, if_pos (by omega), ok_bind]
      refine ⟨_, _, rfl, rfl, (addresses_suffix _ _ _ _).trans (List.drop_suffix _ _), rfl, ?_⟩
      simpa [sctpAddresses] using hcnt
    · left
      rw [if_neg hend, if_neg hend]
      exact ⟨rfl, rfl⟩
  rw [if_neg hs] at h ⊢
  by_cases ht : checkTLV b = PARAM_TCP_TRANSPORT
  · right
    rw [if_pos ht] at h ⊢
    obtain ⟨h8, haddr, hwhole⟩ := h
    rw [sendBufferToTransportAddresses_tcp ht, advance_eq h8, ok_bind, oneAddress_ok hwhole, ok_bind, if_pos haddr]
    dsimp only [written]
    rw [ok_bind, read16, if_pos (by omega), ok_bind]
    exact ⟨_, _, rfl, rfl, (List.drop_suffix _ _).trans (List.drop_suffix _ _), rfl, one_le_max⟩
  rw [if_neg ht] at h ⊢
  by_cases hu : checkTLV b = PARAM_UDP_TRANSPORT
  · rw [if_pos hu] at h ⊢
    obtain ⟨h8, hwhole⟩ := h
    rw [sendBufferToTransportAddresses_udp hu, advance_eq h8.le, ok_bind, oneAddress_ok hwhole, ok_bind]
    dsimp only
    by_cases hnil : (b.drop 8).drop (addrSize (b.drop 8)) = []
    · right
      have haddr : IsAddress (b.drop 8) := by
        by_contra haddr
        rw [addrSize_of_not haddr, List.drop_zero] at hnil
        have := congrArg List.length hnil
        rw [List.length_drop, List.length_nil] at this
        omega
      rw [if_pos hnil, hnil, if_neg (by simp), if_pos haddr]
      dsimp only [written]
      rw [ok_bind, read16, if_pos (by omega), ok_bind]
      exact ⟨_, _, rfl, rfl, List.nil_suffix, rfl, one_le_max⟩
    · left
      rw [if_neg hnil, if_pos (fun hlen => hnil (List.eq_nil_of_length_eq_zero hlen))]
      exact ⟨rfl, rfl⟩
  · left
    rw [if_neg hu]
    exact ⟨rfl, sendBufferToTransportAddresses_other hs ht hu⟩

theorem transport_fails (h : ¬ TransportFits useLoopback b) : Fails (sendBufferToTransportAddresses useLoopback b) := by
  unfold TransportFits at h
  by_cases hs : checkTLV b = PARAM_SCTP_TRANSPORT
  · rw [if_pos hs] at h
    rw [sendBufferToTransportAddresses_sctp hs]
    by_cases h8 : 8 ≤ b.length
    · rw [advance_eq h8, ok_bind]
      apply Fails.bind
      apply parseAddrs_fails _ (by decide)
      intro hc
      exact h ⟨h8, hc.1, by simpa [sctpAddresses] using hc.2⟩
    · exact (advance_fails h8).bind _
  rw [if_neg hs] at h
  by_cases ht : checkTLV b = PARAM_TCP_TRANSPORT
  · rw [if_pos ht] at h
    rw [sendBufferToTransportAddresses_tcp ht]
    by_cases h8 : 8 ≤ b.length
    · rw [advance_eq h8, ok_bind]
      by_cases hwhole : Whole (b.drop 8)
      · have haddr : ¬ IsAddress (b.drop 8) := fun haddr => h ⟨h8, haddr, hwhole⟩
        rw [oneAddress_ok hwhole, ok_bind, if_neg haddr]
        exact ⟨.undefined, rfl⟩
      · exact (oneAddress_fails hwhole).bind _
    · exact (advance_fails h8).bind _
  rw [if_neg ht] at h
  by_cases hu : checkTLV b = PARAM_UDP_TRANSPORT
  · rw [if_pos hu] at h
    rw [sendBufferToTransportAddresses_udp hu]
    by_cases h8 : 8 ≤ b.length
    · rw [advance_eq h8, ok_bind]
      by_cases hwhole : Whole (b.drop 8)
      · have hlen : b.length = 8 := by
          by_contra hne
          exact h ⟨by omega, hwhole⟩
        have hnil : b.drop 8 = [] := List.drop_eq_nil_of_le hlen.le
        rw [oneAddress_ok hwhole, ok_bind, hnil]
        exact ⟨.undefined, rfl⟩
      · exact (oneAddress_fails hwhole).bind _
    · exact (advance_fails h8).bind _
  · rw [if_neg hu] at h
    exact absurd trivial h

end Transport

/-- The transport parameters are read within the bounds, and what is reported is defined. -/
def TransportSafe (useLoopback : Bool) (b : Bytes) : Prop :=
  ∃ x, sendBufferToTransportAddresses useLoopback b = .ok x ∧
    ∀ t, x = some t → t.length ≤ b.length ∧ t.addrs.length ≤ MAX_ADDR_CNT

/-- A pool element is read within the bounds, and what is reported is defined. -/
def ElementSafe (useLoopback alloc : Bool) (b : Bytes) : Prop :=
  ∃ x, sendBufferToPoolElement useLoopback alloc b = .ok x ∧
    ∀ n pe, x = some (n, pe) → n ≤ b.length ∧
      ∀ e, pe = some e → e.peUserTransportAddr.length ≤ MAX_ADDR_CNT ∧ e.peAsapTransportAddr.length ≤ MAX_ADDR_CNT

section Element

variable {useLoopback alloc : Bool} {b : Bytes}

theorem transportSafe_iff : TransportSafe useLoopback b ↔ TransportFits useLoopback b := by
  constructor
  · rintro ⟨x, hx, -⟩
    by_contra h
    obtain ⟨f, hf⟩ := transport_fails h
    rw [hx] at hf
    cases hf
  · intro h
    rcases transport_ok h with ⟨-, hx⟩ | ⟨c, t, -, hx, hsuf, hlen, hcnt⟩
    · exact ⟨none, hx, fun t ht => by cases ht⟩
    · refine ⟨some t, hx, ?_⟩
      rintro t ⟨⟩
      exact ⟨by omega, hcnt⟩

/-- How a pool element is made of its parameter, when both are long enough. -/
theorem initPoolElement_ok {policy : Bytes} {user : TransportAddresses} (hb : 16 ≤ b.length)
    (hlen : policy.u16 2 ≤ policy.length) (h8 : 8 ≤ policy.length) :
    ∃ e, initPoolElement b policy user = .ok e ∧ e.peUserTransportAddr = user.addrs ∧
      e.peAsapTransportAddr = user.addrs := by
  have hload : ∃ n, (if 12 ≤ policy.u16 2 then read32 policy 8 else .ok 0) = .ok n := by
    split
    · exact ⟨_, if_pos (by omega)⟩
    · exact ⟨0, rfl⟩
  have hdeg : ∃ n, (if 16 ≤ policy.u16 2 then read32 policy 12 else .ok 0) = .ok n := by
    split
    · exact ⟨_, if_pos (by omega)⟩
    · exact ⟨0, rfl⟩
  obtain ⟨load, hload⟩ := hload
  obtain ⟨deg, hdeg⟩ := hdeg
  rw [initPoolElement, read32, if_pos (by omega), ok_bind, read32, if_pos (by omega), ok_bind, read32,
    if_pos (by omega), ok_bind, read32, if_pos (by omega), ok_bind, hload, ok_bind, hdeg, ok_bind]
  exact ⟨_, rfl, rfl, rfl⟩

theorem initPoolElement_fails {policy : Bytes} {user : TransportAddresses} (hb : 16 ≤ b.length)
    (h8 : ¬ 8 ≤ policy.length) : Fails (initPoolElement b policy user) := by
  rw [initPoolElement, read32, if_pos (by omega), ok_bind, read32, if_pos (by omega), ok_bind, read32,
    if_pos (by omega), ok_bind, read32, if_neg (by omega)]
  exact ⟨.read, rfl⟩

/-- What comes of the part behind the policy. -/
theorem asapTransport_ok (h : b ≠ [] → TransportFits useLoopback b) :
    ∃ x, asapTransport useLoopback b = .ok x ∧ (x.isSome ↔ b = [] ∨ (behind b).isSome) ∧ ∀ c, x = some c → c <:+ b := by
  rw [asapTransport]
  by_cases hnil : b = []
  · subst hnil
    exact ⟨some [], rfl, by simp, fun c hc => by cases hc; exact List.suffix_refl _⟩
  · rw [if_pos (List.length_pos_iff.2 hnil)]
    rcases transport_ok (h hnil) with ⟨hbehind, hx⟩ | ⟨c, t, hbehind, hx, hsuf, hlen, -⟩
    · rw [hx]
      exact ⟨none, rfl, by simp [hnil, hbehind], fun c hc => by cases hc⟩
    · have hle : t.length ≤ b.length := by omega
      refine ⟨some (b.drop t.length), ?_, by simp [hbehind], fun d hd => ?_⟩
      · rw [hx, ok_bind]
        dsimp only
        rw [advance_eq hle]
        rfl
      · cases hd
        exact List.drop_suffix _ _

theorem asapTransport_fails (hnil : b ≠ []) (h : ¬ TransportFits useLoopback b) :
    Fails (asapTransport useLoopback b) := by
  rw [asapTransport, if_pos (List.length_pos_iff.2 hnil)]
  exact (transport_fails h).bind _

/-- What is done behind the user transport parameter. -/
def elementTail (useLoopback alloc : Bool) (b b₂ : Bytes) (user : TransportAddresses) :
    Except Fault (Option (ℕ × Option PoolElement)) :=
  if checkTLV b₂ = PARAM_POOL_MEMBER_SELECTION_POLICY then do
    let b₃ ← advance b₂ (b₂.u16 2)
    match ← asapTransport useLoopback b₃ with
    | none => return none
    | some b₄ =>
      let pe ← if alloc then (initPoolElement b b₂ user).map some else .ok none
      return some (b.length - b₄.length, pe)
  else return none

theorem sendBufferToPoolElement_eq (h : checkTLV b = PARAM_POOL_ELEMENT) (h16 : 16 ≤ b.length) :
    sendBufferToPoolElement useLoopback alloc b = (do
      match ← sendBufferToTransportAddresses useLoopback (b.drop 16) with
      | none => return none
      | some user =>
        let b₂ ← advance (b.drop 16) user.length
        elementTail useLoopback alloc b b₂ user) := by
  rw [sendBufferToPoolElement, if_pos h, advance_eq h16]
  rfl

theorem elementTail_ok {b₂ : Bytes} {user : TransportAddresses} (hb : 16 ≤ b.length)
    (hcnt : user.addrs.length ≤ MAX_ADDR_CNT) (h : PolicyFits useLoopback alloc b₂) :
    ∃ x, elementTail useLoopback alloc b b₂ user = .ok x ∧ ∀ n pe, x = some (n, pe) → n ≤ b.length ∧
      ∀ e, pe = some e → e.peUserTransportAddr.length ≤ MAX_ADDR_CNT ∧ e.peAsapTransportAddr.length ≤ MAX_ADDR_CNT := by
  rw [elementTail]
  by_cases hp : checkTLV b₂ = PARAM_POOL_MEMBER_SELECTION_POLICY
  · rw [if_pos hp]
    obtain ⟨htrans, h8⟩ := h hp
    obtain ⟨-, hlen, -⟩ := checkTLV_spec hp (by decide)
    obtain ⟨x, hx, hsome, hsuf⟩ := asapTransport_ok htrans
    rw [advance_eq hlen, ok_bind, hx, ok_bind]
    cases x with
    | none => exact ⟨none, rfl, fun n pe hn => by cases hn⟩
    | some b₄ =>
      dsimp only
      cases alloc with
      | false =>
        refine ⟨_, rfl, ?_⟩
        rintro n pe ⟨⟩
        exact ⟨Nat.sub_le _ _, fun e he => by cases he⟩
      | true =>
        obtain ⟨e, he, huser, hasap⟩ : ∃ e, initPoolElement b b₂ user = .ok e ∧ e.peUserTransportAddr = user.addrs ∧
            e.peAsapTransportAddr = user.addrs := initPoolElement_ok hb hlen (h8 rfl (hsome.1 rfl))
        rw [if_pos rfl, he]
        refine ⟨_, rfl, ?_⟩
        rintro n pe ⟨⟩
        refine ⟨Nat.sub_le _ _, ?_⟩
        rintro e ⟨⟩
        rw [huser, hasap]
        exact ⟨hcnt, hcnt⟩
  · rw [if_neg hp]
    exact ⟨none, rfl, fun n pe hn => by cases hn⟩

theorem elementTail_fails {b₂ : Bytes} {user : TransportAddresses} (hb : 16 ≤ b.length)
    (h : ¬ PolicyFits useLoopback alloc b₂) : Fails (elementTail useLoopback alloc b b₂ user) := by
  unfold PolicyFits at h
  push Not at h
  obtain ⟨hp, h⟩ := h
  obtain ⟨-, hlen, -⟩ := checkTLV_spec hp (by decide)
  rw [elementTail, if_pos hp, advance_eq hlen, ok_bind]
  by_cases htrans : b₂.drop (b₂.u16 2) ≠ [] → TransportFits useLoopback (b₂.drop (b₂.u16 2))
  · obtain ⟨halloc, hend, h8⟩ := h htrans
    obtain ⟨x, hx, hsome, -⟩ := asapTransport_ok htrans
    obtain ⟨b₄, rfl⟩ := Option.isSome_iff_exists.1 (hsome.2 hend)
    rw [hx, ok_bind]
    dsimp only
    obtain ⟨f, hf⟩ : Fails (initPoolElement b b₂ user) := initPoolElement_fails hb (by omega)
    rw [halloc, if_pos rfl, hf]
    exact ⟨f, rfl⟩
  · push Not at htrans
    exact (asapTransport_fails htrans.1 htrans.2).bind _

theorem elementSafe_iff : ElementSafe useLoopback alloc b ↔ ElementFits useLoopback alloc b := by
  unfold ElementSafe ElementFits
  by_cases h : checkTLV b = PARAM_POOL_ELEMENT
  · rw [forall_prop_of_true h]
    by_cases h16 : 16 ≤ b.length
    · rw [sendBufferToPoolElement_eq h h16]
      by_cases htrans : TransportFits useLoopback (b.drop 16)
      · rcases transport_ok htrans with ⟨hbehind, hx⟩ | ⟨c, t, hbehind, hx, hsuf, hlen, hcnt⟩
        · rw [hx, ok_bind]
          refine iff_of_true ⟨none, rfl, fun n pe hn => by cases hn⟩ ⟨h16, htrans, fun c hc => ?_⟩
          rw [hbehind] at hc
          cases hc
        · have hle : t.length ≤ (b.drop 16).length := by omega
          have hdrop : (b.drop 16).drop t.length = c := by
            rw [hlen]
            exact (List.suffix_iff_eq_drop.1 hsuf).symm
          rw [hx, ok_bind]
          dsimp only
          rw [advance_eq hle, ok_bind, hdrop]
          by_cases hpolicy : PolicyFits useLoopback alloc c
          · refine iff_of_true (elementTail_ok h16 hcnt hpolicy) ⟨h16, htrans, fun d hd => ?_⟩
            rw [hbehind] at hd
            cases hd
            exact hpolicy
          · refine iff_of_false ?_ fun hall => hpolicy (hall.2.2 c hbehind)
            rintro ⟨x, hx, -⟩
            obtain ⟨f, hf⟩ : Fails (elementTail useLoopback alloc b c t) := elementTail_fails h16 hpolicy
            rw [hx] at hf
            cases hf
      · refine iff_of_false ?_ fun hall => htrans hall.2.1
        rintro ⟨x, hx, -⟩
        obtain ⟨f, hf⟩ := transport_fails htrans
        rw [hf] at hx
        cases hx
    · refine iff_of_false ?_ fun hall => h16 hall.1
      rintro ⟨x, hx, -⟩
      obtain ⟨f, hf⟩ := advance_fails h16
      rw [sendBufferToPoolElement, if_pos h, hf] at hx
      cases hx
  · refine iff_of_true ⟨none, ?_, fun n pe hn => by cases hn⟩ fun hc => absurd hc h
    rw [sendBufferToPoolElement, if_neg h]
    rfl

end Element

/-- Both parsers keep their bounds exactly on the buffers that fit. -/
theorem parse_safe_iff (useLoopback alloc : Bool) (b : Bytes) :
    (TransportSafe useLoopback b ↔ TransportFits useLoopback b) ∧
      (ElementSafe useLoopback alloc b ↔ ElementFits useLoopback alloc b) :=
  ⟨transportSafe_iff, elementSafe_iff⟩

/-- A TCP transport parameter with no address and only its header, one with no address, an SCTP transport
parameter with more addresses than there is room for, and a pool element cut off. -/
theorem not_parse_safe :
    (¬ TransportSafe true [0, 5, 0, 4]) ∧ (¬ TransportSafe true [0, 5, 0, 8, 0, 7, 0, 0]) ∧
      (¬ TransportSafe true ([0, 4, 1, 16, 0, 7, 0, 0] ++ (List.replicate 33 [0, 1, 0, 8, 10, 0, 0, 1]).flatten)) ∧
      ¬ ElementSafe true true [0, 10, 0, 4] := by
  refine ⟨?_, ?_, ?_, ?_⟩
  · rintro ⟨x, hx, -⟩
    have hf : sendBufferToTransportAddresses true [0, 5, 0, 4] = .error .wrap := by decide +kernel
    rw [hx] at hf
    cases hf
  · rintro ⟨x, hx, -⟩
    have hf : sendBufferToTransportAddresses true [0, 5, 0, 8, 0, 7, 0, 0] = .error .undefined := by decide +kernel
    rw [hx] at hf
    cases hf
  · rintro ⟨x, hx, -⟩
    have hf : sendBufferToTransportAddresses true
        ([0, 4, 1, 16, 0, 7, 0, 0] ++ (List.replicate 33 [0, 1, 0, 8, 10, 0, 0, 1]).flatten) = .error .overflow := by
      decide +kernel
    rw [hx] at hf
    cases hf
  · rintro ⟨x, hx, -⟩
    have hf : sendBufferToPoolElement true true [0, 10, 0, 4] = .error .wrap := by decide +kernel
    rw [hx] at hf
    cases hf

end Sctp.Enrp
