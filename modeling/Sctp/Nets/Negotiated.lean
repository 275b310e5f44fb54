import Sctp.Nets.Features

/-! The negotiation is exact for settled parameters, and of parameters with their header for no others. -/
namespace Sctp.Nets

open Asconf (Addr)
open Auth
open Tlv (Param)

variable {c c' : LoadCall} {before : Features} {x y : Param}

theorem LoadCall.getD_bytes {i : ℕ} (h : i < x.plen - 4) : (c.bytes x).getD i 0 = c.p.getD (x.offset + 4 + i) 0 := by
  rw [LoadCall.bytes, List.getD_eq_getElem _ _ (by rw [List.length_map, List.length_range]; exact h),
    List.getElem_map, List.getElem_range]

theorem LoadCall.u32_bytes {o : ℕ} (h : o + 4 ≤ x.plen - 4) :
    Bytes.u32 (c.bytes x) o = c.p.u32 (x.offset + 4 + o) := by
  unfold Bytes.u32 Bytes.u16
  rw [getD_bytes (by omega), getD_bytes (by omega), getD_bytes (by omega), getD_bytes (by omega)]
  simp only [Nat.add_assoc]

/-- The address in the bytes of an address parameter of a family that is legal. -/
def saidAddr (legal4 legal6 : Bool) (t : ℕ) (bs : Bytes) : Option Addr :=
  if t = ipv4Address ∧ legal4 then some (.v4 (BitVec.ofNat 32 (bs.u32 0)))
  else if t = ipv6Address ∧ legal6 then
    some (.v6 (BitVec.ofNat 32 (bs.u32 0) ++ BitVec.ofNat 32 (bs.u32 4) ++ BitVec.ofNat 32 (bs.u32 8) ++
      BitVec.ofNat 32 (bs.u32 12)))
  else none

/-- An address parameter of a legal family has the length of one. -/
def FitsAddr (c : LoadCall) (x : Param) : Prop :=
  (x.type = ipv4Address → c.ipv4AddrLegal = true → x.plen = 8) ∧
    (x.type = ipv6Address → c.ipv6AddrLegal = true → x.plen = 20)

theorem heardAddr_eq (h : FitsAddr c x) :
    c.heardAddr x = saidAddr c.ipv4AddrLegal c.ipv6AddrLegal x.type (c.bytes x) := by
  unfold LoadCall.heardAddr saidAddr
  by_cases h4 : x.type = ipv4Address ∧ c.ipv4AddrLegal = true
  · rw [if_pos h4, if_pos h4, LoadCall.v4At, LoadCall.u32_bytes (by rw [h.1 h4.1 h4.2])]
  rw [if_neg h4, if_neg h4]
  by_cases h6 : x.type = ipv6Address ∧ c.ipv6AddrLegal = true
  · have hplen := h.2 h6.1 h6.2
    rw [if_pos h6, if_pos h6, LoadCall.v6At, LoadCall.u32_bytes (by rw [hplen]; omega),
      LoadCall.u32_bytes (by rw [hplen]; omega), LoadCall.u32_bytes (by rw [hplen]; omega),
      LoadCall.u32_bytes (by rw [hplen])]
  · rw [if_neg h6, if_neg h6]

theorem fitsAddr_of_turn {asconfSupported : Bool} {s s' : Load} (h : s.turn c asconfSupported x = .go s') :
    FitsAddr c x := by
  rcases Load.turn_cases c asconfSupported x s with ⟨hx, heq⟩ | ⟨hx, heq⟩ | hrest
  · rw [h] at heq
    refine ⟨fun _ hlegal => ?_, fun h6 => absurd (hx.symm.trans h6) (by decide)⟩
    unfold Load.ipv4Param at heq
    rw [hlegal, Bool.not_true, if_neg Bool.false_ne_true] at heq
    by_contra hplen
    rw [if_pos (.inl hplen)] at heq
    cases heq
  · rw [h] at heq
    refine ⟨fun h4 => absurd (hx.symm.trans h4) (by decide), fun _ hlegal => ?_⟩
    unfold Load.ipv6Param at heq
    rw [hlegal, Bool.not_true, if_neg Bool.false_ne_true] at heq
    by_contra hplen
    rw [if_pos (.inl hplen)] at heq
    cases heq
  · have hne : x.type ≠ ipv4Address ∧ x.type ≠ ipv6Address := by
      rcases hrest with ⟨hx, -⟩ | ⟨hx, -⟩ | ⟨hx, -⟩ | ⟨hx, -⟩ | ⟨hx, -⟩ | ⟨hx, -⟩ | ⟨hx, -⟩ | ⟨hx, -⟩
      iterate 7 exact ⟨by rw [hx]; decide, by rw [hx]; decide⟩
      exact ⟨fun h4 => hx (by rw [h4]; decide), fun h6 => hx (by rw [h6]; decide)⟩
    exact ⟨fun h4 => absurd h4 hne.1, fun h6 => absurd h6 hne.2⟩

/-- Every parameter of a loop that is gone through had a turn that goes on. -/
theorem exists_turn {σ : Type} {f : Param → σ → Turn σ} {xs : List Param} {s t : σ}
    (hnostop : ∀ x ∈ xs, ∀ s, f x s ≠ .stop) (h : scan f xs s = .ok t) :
    ∀ x ∈ xs, ∃ s s', f x s = .go s' := by
  have hstep : ∀ (pre : List Param) (x : Param) (s s' : σ), x ∈ xs → (∀ y ∈ pre, ∃ s s', f y s = .go s') →
      f x s = .go s' → ∀ y ∈ pre ++ [x], ∃ s s', f y s = .go s' := by
    intro pre x s s' _ hpre hturn y hy
    rcases List.mem_append.1 hy with hy | hy
    · exact hpre y hy
    · rw [List.mem_singleton.1 hy]
      exact ⟨s, s', hturn⟩
  have hnil : ∀ y ∈ ([] : List Param), ∃ s s', f y s = .go s' := fun y hy => absurd hy List.not_mem_nil
  exact scan_induction hnostop hstep hnil h

theorem exists_turn_of_accepted {d : Dests} {r : Accepted} (h : loadAddressesFromInit c before d = .ok r) :
    ∀ x ∈ c.listed, ∃ s s', Load.turn c before.asconf x s = .go s' := by
  obtain ⟨s, hwalk, -, -⟩ := loadAddressesFromInit_ok h
  obtain ⟨d', -, hscan⟩ := walkParams_ok hwalk
  exact exists_turn (fun x hx s => Load.turn_of_stops.2 (stops_of_mem_listed hx)) hscan

/-- The address of a parameter does not depend on where it stands. -/
theorem listedAddr_congr (h : c'.Restates c) (hx : FitsAddr c x) (hy : FitsAddr c' y)
    (htype : x.type = y.type) (hbytes : c.bytes x = c'.bytes y) : c.listedAddr x = c'.listedAddr y := by
  unfold LoadCall.listedAddr
  rw [heardAddr_eq hx, heardAddr_eq hy, htype, hbytes, h.ipv4AddrLegal, h.ipv6AddrLegal]

theorem settled_congr {d d' : Dests} {r r' : Accepted} (h : loadAddressesFromInit c before d = .ok r)
    (h' : loadAddressesFromInit c' before d' = .ok r') (hsame : c'.Restates c) (hc : Settled c before) :
    Settled c' before := by
  constructor
  · rw [announced_congr hsame, names_congr hsame.contents, names_congr hsame.contents]
    exact hc.asconf
  · rw [names_congr hsame.contents]
    intro hbefore hnames y hy
    obtain ⟨x, hx, htype, -, hbytes⟩ := exists_restated hsame.contents hy
    obtain ⟨_, _, hturn⟩ := exists_turn_of_accepted h x hx
    obtain ⟨_, _, hturn'⟩ := exists_turn_of_accepted h' y hy
    rw [← listedAddr_congr hsame (fitsAddr_of_turn hturn) (fitsAddr_of_turn hturn') htype hbytes]
    exact hc.ndata hbefore hnames x hx

theorem negotiates_of_settled {d : Dests} {r : Accepted} (h : loadAddressesFromInit c before d = .ok r)
    (hsized : c.Sized) (hc : Settled c before) : ExactlyNegotiated c before r where
  features := features_of_settled hsized hc h
  unordered c' d' r' hsame h' := by
    rw [features_of_settled (sized_congr hsame hsized) (settled_congr h h' hsame hc) h',
      features_of_settled hsized hc h, announced_congr hsame]

def isAddrParam (x : Param) : Bool := x.type = ipv4Address || x.type = ipv6Address

theorem isAddrParam_iff : isAddrParam x = true ↔ x.type = ipv4Address ∨ x.type = ipv6Address := by
  unfold isAddrParam
  rw [Bool.or_eq_true, decide_eq_true_eq, decide_eq_true_eq]

theorem isAddrParam_of_type {t : ℕ} (ht : x.type = t) (h4 : t ≠ ipv4Address) (h6 : t ≠ ipv6Address) :
    isAddrParam x = false := by
  rw [← Bool.not_eq_true, isAddrParam_iff, ht]
  exact fun h => h.elim h4 h6

/-- A parameter of the one packet and one of another that says the same. -/
structure Copied (c c' : LoadCall) (x y : Param) : Prop where
  type : y.type = x.type
  plen : y.plen = x.plen
  bytes : c'.bytes y = c.bytes x
  room : (c'.p.piece y.offset y.plen).isSome

theorem Copied.readable (h : Copied c c' x y) : ¬ unreadable c'.p y = true := by
  have hroom := Bytes.piece_isSome_iff.1 h.room
  have hbuffer : 0 < paramBufferSize := by decide
  unfold unreadable
  rw [Bool.not_eq_true, Option.isNone_eq_false_iff, Bytes.piece_isSome_iff]
  omega

/-- SHA-1 is in the list of an HMAC-ALGO parameter. -/
theorem Copied.hmacs (h : Copied c c' x y) (hhead : 4 ≤ x.plen) :
    ((List.range (bodyLen y / 2)).any fun i =>
      (c'.view y.offset y.plen (4 + 2 * i)).toNat * 256 + (c'.view y.offset y.plen (5 + 2 * i)).toNat = 1) =
    (List.range (bodyLen x / 2)).any fun i =>
      (c.view x.offset x.plen (4 + 2 * i)).toNat * 256 + (c.view x.offset x.plen (5 + 2 * i)).toNat = 1 := by
  have hview : ∀ {e : LoadCall} {z : Param} {i : ℕ}, i < z.plen - 4 →
      e.view z.offset z.plen (4 + i) = (e.bytes z).getD i 0 := by
    intro e z i hi
    rw [LoadCall.getD_bytes hi, LoadCall.view, if_pos (by omega), Nat.add_assoc]
  have hlen : bodyLen y = bodyLen x := by
    unfold bodyLen
    rw [h.plen]
  have hbody : bodyLen x = x.plen - 4 := if_pos hhead
  have heach : ∀ i ∈ List.range (bodyLen x / 2),
      ((c'.view y.offset y.plen (4 + 2 * i)).toNat * 256 + (c'.view y.offset y.plen (5 + 2 * i)).toNat = 1) =
        ((c.view x.offset x.plen (4 + 2 * i)).toNat * 256 + (c.view x.offset x.plen (5 + 2 * i)).toNat = 1) := by
    intro i hi
    have hi := List.mem_range.1 hi
    rw [show 5 + 2 * i = 4 + (2 * i + 1) by omega, hview (by rw [h.plen]; omega),
      hview (by rw [h.plen]; omega), hview (by omega), hview (by omega), h.bytes]
  rw [hlen, Bool.eq_iff_iff, List.any_eq_true, List.any_eq_true]
  apply exists_congr
  intro i
  apply and_congr_right
  intro hi
  simp only [decide_eq_true_eq, heach i hi]

def Load.checked (s : Load) : List Bool :=
  [s.auth, s.asconf, s.sawAsconf, s.sawAsconfAck, s.gotRandom, s.gotHmacs, s.gotChklist]

theorem checked_eq_iff {s s' : Load} : s.checked = s'.checked ↔ s.auth = s'.auth ∧ s.asconf = s'.asconf ∧
    s.sawAsconf = s'.sawAsconf ∧ s.sawAsconfAck = s'.sawAsconfAck ∧ s.gotRandom = s'.gotRandom ∧
    s.gotHmacs = s'.gotHmacs ∧ s.gotChklist = s'.gotChklist := by
  simp [Load.checked]

theorem check_congr {s s' : Load} (h : s.checked = s'.checked) : s.check = s'.check := by
  obtain ⟨hauth, hasconf, hsaw, hack, -, -, hchunks⟩ := checked_eq_iff.1 h
  unfold Load.check
  rw [hauth, hasconf, hsaw, hack, hchunks]

theorem mem_addrs_setPrimaryAddr {d : Dests} {sa a : Addr} :
    a ∈ ((d.setPrimaryAddr sa).getD d).addrs ↔ a ∈ d.addrs := by
  cases hset : d.setPrimaryAddr sa with
  | none => rfl
  | some d' =>
    obtain ⟨n, -, -, ⟨-, rfl⟩ | ⟨-, rfl⟩⟩ := Dests.setPrimaryAddr_cases hset
    · rw [Option.getD_some, Dests.update_addrs]
      exact fun _ => rfl
    · exact ((d.makePrimary_perm n).map Dest.addr).mem_iff

/-- What a turn without an address leaves alone. -/
structure Calm (s s' : Load) : Prop where
  others : s'.others = s.others
  addrs : ∀ a, a ∈ s'.dests.addrs ↔ a ∈ s.dests.addrs

/-- A state is gone on from where the first one is, with what is checked the same. -/
def GoesOn (s' t : Load) (turn : Turn Load) : Prop :=
  ∃ t', turn = .go t' ∧ t.checked = t'.checked ∧ Calm s' t'

section

variable {asconfSupported : Bool} {s s' t : Load} (h : Copied c c' x y) (hsame : s.checked = s'.checked)

include h hsame

theorem setPrimParam_copied (hturn : s.setPrimParam c asconfSupported x = .go t) :
    GoesOn s' t (s'.setPrimParam c' asconfSupported y) := by
  have hchecked : t.checked = s'.checked := by
    rcases Load.setPrimParam_go hturn with ⟨-, rfl⟩ | ⟨a, -, rfl⟩
    · exact hsame
    · exact hsame
  have hroom : ¬ (c'.p.piece y.offset y.plen).isNone = true := by
    rw [Bool.not_eq_true, Option.isNone_eq_false_iff]
    exact h.room
  unfold Load.setPrimParam at hturn ⊢
  split at hturn
  · cases hturn
  rename_i hsupported
  split at hturn
  · cases hturn
  rename_i hshort
  rw [if_neg hsupported, if_neg (h.plen ▸ hshort), if_neg hroom]
  cases Load.lsa c' y with
  | none => exact ⟨s', rfl, hchecked, rfl, fun _ => Iff.rfl⟩
  | some a => exact ⟨_, rfl, hchecked, rfl, fun _ => mem_addrs_setPrimaryAddr⟩

theorem extParam_copied (hext : x.plen ≤ paramBufferSize) (hturn : s.extParam c x = .go t) :
    GoesOn s' t (s'.extParam c' y) := by
  obtain ⟨hauth, hasconf, hsaw, hack, hrandom, hhmacs, hchunks⟩ := checked_eq_iff.1 hsame
  have htypes : Load.extTypes c' y = Load.extTypes c x := by
    rw [extTypes_eq_bytes hext, extTypes_eq_bytes (h.plen ▸ hext), h.bytes]
  unfold Load.extParam at hturn ⊢
  split at hturn
  · cases hturn
  rw [if_neg h.readable, htypes, ← Turn.go.inj hturn]
  refine ⟨_, rfl, ?_, rfl, fun _ => Iff.rfl⟩
  rw [checked_eq_iff]
  exact ⟨congrArg (· || _) hauth, congrArg (· || _) hasconf, hsaw, hack, hrandom, hhmacs, hchunks⟩

theorem randomTurn_copied (hturn : s.randomTurn c x = .go t) : GoesOn s' t (s'.randomTurn c' y) := by
  obtain ⟨hauth, hasconf, hsaw, hack, hrandom, hhmacs, hchunks⟩ := checked_eq_iff.1 hsame
  have hlen : bodyLen y = bodyLen x := by
    unfold bodyLen
    rw [h.plen]
  unfold Load.randomTurn at hturn ⊢
  rw [h.plen, hlen, ← hrandom]
  split at hturn
  · cases hturn
  rename_i hshort
  rw [if_neg hshort]
  split at hturn
  · rename_i hgot
    rw [if_pos hgot, ← Turn.go.inj hturn]
    exact ⟨s', rfl, hsame, rfl, fun _ => Iff.rfl⟩
  rename_i hgot
  split at hturn
  · cases hturn
  split at hturn
  · cases hturn
  rename_i hsize
  rw [if_neg hgot, if_neg h.readable, if_neg hsize, ← Turn.go.inj hturn]
  exact ⟨_, rfl, checked_eq_iff.2 ⟨hauth, hasconf, hsaw, hack, rfl, hhmacs, hchunks⟩, rfl, fun _ => Iff.rfl⟩

theorem hmacTurn_copied (hhead : 4 ≤ x.plen) (hturn : s.hmacTurn c x = .go t) :
    GoesOn s' t (s'.hmacTurn c' y) := by
  obtain ⟨hauth, hasconf, hsaw, hack, hrandom, hhmacs, hchunks⟩ := checked_eq_iff.1 hsame
  have hlist := h.hmacs hhead
  rw [h.plen] at hlist
  unfold Load.hmacTurn at hturn ⊢
  rw [h.plen, hlist, ← hhmacs]
  split at hturn
  · cases hturn
  rename_i hshort
  rw [if_neg hshort]
  split at hturn
  · rename_i hgot
    rw [if_pos hgot, ← Turn.go.inj hturn]
    exact ⟨s', rfl, hsame, rfl, fun _ => Iff.rfl⟩
  rename_i hgot
  split at hturn
  · cases hturn
  split at hturn
  · rename_i hknown
    rw [if_neg hgot, if_neg h.readable, if_pos hknown, ← Turn.go.inj hturn]
    exact ⟨_, rfl, checked_eq_iff.2 ⟨hauth, hasconf, hsaw, hack, hrandom, rfl, hchunks⟩, rfl, fun _ => Iff.rfl⟩
  · cases hturn

theorem chunksTurn_copied (hhead : 4 ≤ x.plen) (hturn : s.chunksTurn c x = .go t) :
    GoesOn s' t (s'.chunksTurn c' y) := by
  obtain ⟨hauth, hasconf, hsaw, hack, hrandom, hhmacs, hchunks⟩ := checked_eq_iff.1 hsame
  have htypes : Load.chunkTypes c' y = Load.chunkTypes c x := by
    rw [chunkTypes_eq_bytes hhead, chunkTypes_eq_bytes (h.plen ▸ hhead), h.bytes]
  unfold Load.chunksTurn at hturn ⊢
  rw [h.plen, htypes, ← hchunks]
  split at hturn
  · cases hturn
  rename_i hshort
  rw [if_neg hshort]
  split at hturn
  · rename_i hgot
    rw [if_pos hgot, ← Turn.go.inj hturn]
    exact ⟨s', rfl, hsame, rfl, fun _ => Iff.rfl⟩
  rename_i hgot
  split at hturn
  · cases hturn
  rw [if_neg hgot, if_neg h.readable, ← Turn.go.inj hturn]
  refine ⟨_, rfl, ?_, rfl, fun _ => Iff.rfl⟩
  rw [checked_eq_iff]
  exact ⟨hauth, hasconf, congrArg (· || _) hsaw, congrArg (· || _) hack, hrandom, hhmacs, rfl⟩

/-- A parameter without an address that is gone past in the one packet is gone past in the other. -/
theorem turn_copied (hturn : s.turn c asconfSupported x = .go t) (hx : isAddrParam x = false)
    (hhead : 4 ≤ x.plen) (hext : x.type = supportedChunkExt → x.plen ≤ paramBufferSize) :
    GoesOn s' t (s'.turn c' asconfSupported y) := by
  have hy : ∀ {k : ℕ}, x.type = k → y.type = k := fun ht => h.type.trans ht
  rcases Load.turn_cases c asconfSupported x s with ⟨ht, heq⟩ | ⟨ht, heq⟩ | ⟨ht, heq⟩ | ⟨ht, heq⟩ |
    ⟨ht, heq⟩ | ⟨ht, heq⟩ | ⟨ht, heq⟩ | ⟨ht, heq⟩ | ⟨ht, heq⟩ | ⟨ht, heq⟩
  · exact absurd (isAddrParam_iff.2 (.inl ht)) (Bool.eq_false_iff.1 hx)
  · exact absurd (isAddrParam_iff.2 (.inr ht)) (Bool.eq_false_iff.1 hx)
  · rw [Load.turn, hy ht, ← Turn.go.inj (heq.symm.trans hturn)]
    exact ⟨{ s' with ecn := true }, rfl, hsame, rfl, fun _ => Iff.rfl⟩
  · rw [Load.turn, hy ht]
    exact setPrimParam_copied h hsame (heq.symm.trans hturn)
  · rw [Load.turn, hy ht, ← Turn.go.inj (heq.symm.trans hturn)]
    exact ⟨{ s' with prsctp := true }, rfl, hsame, rfl, fun _ => Iff.rfl⟩
  · rw [Load.turn, hy ht]
    exact extParam_copied h hsame (hext ht) (heq.symm.trans hturn)
  · rw [Load.turn, hy ht]
    exact randomTurn_copied h hsame (heq.symm.trans hturn)
  · rw [Load.turn, hy ht]
    exact hmacTurn_copied h hsame hhead (heq.symm.trans hturn)
  · rw [Load.turn, hy ht]
    exact chunksTurn_copied h hsame hhead (heq.symm.trans hturn)
  · rw [hturn] at heq
    split at heq
    · cases heq
    rename_i hquiet
    rcases Load.turn_cases c' asconfSupported y s' with ⟨hk, -⟩ | ⟨hk, -⟩ | ⟨hk, -⟩ | ⟨hk, -⟩ | ⟨hk, -⟩ |
      ⟨hk, -⟩ | ⟨hk, -⟩ | ⟨hk, -⟩ | ⟨hk, -⟩ | ⟨-, hgo⟩
    iterate 9 exact absurd (by rw [← h.type, hk]; decide) ht
    rw [h.type, if_neg hquiet] at hgo
    rw [Turn.go.inj heq]
    exact ⟨s', hgo, hsame, rfl, fun _ => Iff.rfl⟩

end

/-- Behind a turn with an address that is there: all that is checked and every destination stays, and the other
associations are still in set-up. -/
structure Passes (s t : Load) : Prop where
  checked : s.checked = t.checked
  addrs : ∀ a, a ∈ s.dests.addrs → a ∈ t.dests.addrs
  others : ∀ a o, t.others a = some o → o.cookieWait = true

theorem takeAddr_known {s : Load} {a : Addr} (codeAdd codeOther : ℤ) (hknown : a ∈ s.dests.addrs)
    (hfound : c.found a = true) (hothers : ∀ a o, s.others a = some o → o.cookieWait = true) :
    ∃ t, s.takeAddr c a codeAdd codeOther = .go t ∧ Passes s t := by
  obtain ⟨n, hfind⟩ := Option.ne_none_iff_exists'.1 fun h => Dests.findnet_eq_none_iff.1 h hknown
  unfold Load.takeAddr Load.lookup
  cases hother : s.others a with
  | some o =>
    have hadd : s.dests.addRemoteAddr (c.add a) a = some (s.dests.update n.ptr Dests.relist) := by
      unfold Dests.addRemoteAddr
      rw [hfind]
    dsimp only
    rw [if_pos (hothers a o hother), Load.addItNow]
    dsimp only
    rw [hadd]
    have haddrs : (s.dests.update n.ptr Dests.relist).addrs = s.dests.addrs :=
      Dests.update_addrs fun _ => rfl
    refine ⟨_, rfl, rfl, fun b hb => haddrs.symm ▸ hb, fun b o' hb => ?_⟩
    exact hothers b o' (Option.mem_filter_iff.1 hb).1
  | none =>
    dsimp only
    rw [if_pos hfound, hfind]
    have haddrs : (Load.clearNotInAssoc s.dests n).addrs = s.dests.addrs := Dests.update_addrs fun _ => rfl
    exact ⟨_, rfl, rfl, fun b hb => haddrs.symm ▸ hb, hothers⟩

/-- A parameter with an address that is there is gone past, whoever else has it. -/
theorem turn_addr {asconfSupported : Bool} {s : Load} (hx : isAddrParam x = true)
    (hfits : FitsAddr c x) (hroom : (c.p.piece x.offset x.plen).isSome)
    (hknown : ∀ a ∈ c.listedAddr x, a ∈ s.dests.addrs) (hfound : ∀ a, c.found a = true)
    (hothers : ∀ a o, s.others a = some o → o.cookieWait = true) :
    ∃ t, s.turn c asconfSupported x = .go t ∧ Passes s t := by
  have hsome : ∀ {n : ℕ}, x.plen = n → ¬ (x.plen ≠ n ∨ (c.p.piece x.offset n).isNone = true) := by
    intro n hn h
    rcases h with h | h
    · exact h hn
    · rw [← hn, Option.isNone_iff_eq_none] at h
      rw [h] at hroom
      cases hroom
  have hlist : ∀ a codeAdd codeOther, c.heardAddr x = some a → ∃ t, (if unicast a then
      Load.takeAddr c { s with vars := s.vars.list a } a codeAdd codeOther
      else Turn.go { s with vars := s.vars.list a }) = .go t ∧ Passes s t := by
    intro a codeAdd codeOther hheard
    by_cases huni : unicast a = true
    · rw [if_pos huni]
      have hlisted : c.listedAddr x = some a := by
        unfold LoadCall.listedAddr
        rw [hheard, Option.filter_some, if_pos huni]
      obtain ⟨t, hgo, hpass⟩ := takeAddr_known (s := { s with vars := s.vars.list a }) codeAdd codeOther
        (hknown a hlisted) (hfound a) hothers
      exact ⟨t, hgo, hpass.checked, hpass.addrs, hpass.others⟩
    · rw [if_neg huni]
      exact ⟨_, rfl, rfl, fun _ h => h, hothers⟩
  rcases isAddrParam_iff.1 hx with hx | hx
  · rw [Load.turn, if_pos hx, Load.ipv4Param]
    cases hlegal : c.ipv4AddrLegal with
    | false => exact ⟨s, rfl, rfl, fun _ h => h, hothers⟩
    | true =>
      rw [Bool.not_true, if_neg Bool.false_ne_true, if_neg (hsome (hfits.1 hx hlegal))]
      exact hlist _ _ _ (if_pos ⟨hx, hlegal⟩)
  · have hnot : x.type ≠ ipv4Address := by
      rw [hx]
      decide
    rw [Load.turn, if_neg hnot, if_pos hx, Load.ipv6Param]
    cases hlegal : c.ipv6AddrLegal with
    | false => exact ⟨s, rfl, rfl, fun _ h => h, hothers⟩
    | true =>
      rw [Bool.not_true, if_neg Bool.false_ne_true, if_neg (hsome (hfits.2 hx hlegal))]
      have hheard : c.heardAddr x = some (.v6 (c.v6At (x.offset + 4))) := by
        unfold LoadCall.heardAddr
        rw [if_neg fun h => hnot h.1, if_pos ⟨hx, hlegal⟩]
      exact hlist _ _ _ hheard

theorem checked_of_addr {asconfSupported : Bool} {s t : Load} (hx : isAddrParam x = true)
    (hturn : s.turn c asconfSupported x = .go t) : s.checked = t.checked := by
  have hgo : (x.type = ipv4Address ∧ s.ipv4Param c x = .go t) ∨
      (x.type = ipv6Address ∧ s.ipv6Param c x = .go t) := by
    rcases isAddrParam_iff.1 hx with hx | hx
    · rw [Load.turn, if_pos hx] at hturn
      exact .inl ⟨hx, hturn⟩
    · rw [Load.turn, if_neg (by rw [hx]; decide), if_pos hx] at hturn
      exact .inr ⟨hx, hturn⟩
  rcases Load.addrParam_go hgo with ⟨-, rfl⟩ | ⟨a, -, -, rfl⟩ | ⟨a, _, _, -, -, htake⟩
  · rfl
  · rfl
  · rcases Load.takeAddr_go htake with ⟨-, d, -, rfl⟩ | ⟨o, d, -, -, rfl⟩
    · rfl
    · rfl

/-- A list without addresses in another packet is gone through as the list of the first one is, addresses left
out. -/
theorem scan_copied {asconfSupported : Bool} {xs ys : List Param} {s s' t : Load}
    (hcopied : List.Forall₂ (Copied c c') (xs.filter fun x => !isAddrParam x) ys)
    (hhead : ∀ x ∈ xs, 4 ≤ x.plen) (hext : ∀ x ∈ xs, x.type = supportedChunkExt → x.plen ≤ paramBufferSize)
    (hsame : s.checked = s'.checked) (hnostop : ∀ x ∈ xs, stops x = false)
    (h : scan (fun x s => s.turn c asconfSupported x) xs s = .ok t) :
    ∃ t', scan (fun y s => s.turn c' asconfSupported y) ys s' = .ok t' ∧ t.checked = t'.checked ∧
      Calm s' t' := by
  induction xs generalizing ys s s' with
  | nil =>
    rw [List.filter_nil, List.forall₂_nil_left_iff] at hcopied
    subst hcopied
    rw [← Except.ok.inj h]
    exact ⟨s', rfl, hsame, rfl, fun _ => Iff.rfl⟩
  | cons x xs ih =>
    rw [scan] at h
    cases hturn : s.turn c asconfSupported x with
    | stop => exact absurd hturn (Load.turn_of_stops.2 (hnostop x List.mem_cons_self))
    | ret code =>
      rw [hturn] at h
      cases h
    | go s₁ =>
      rw [hturn] at h
      have hhead' : ∀ z ∈ xs, 4 ≤ z.plen := fun z hz => hhead z (List.mem_cons_of_mem _ hz)
      have hext' : ∀ z ∈ xs, z.type = supportedChunkExt → z.plen ≤ paramBufferSize :=
        fun z hz => hext z (List.mem_cons_of_mem _ hz)
      have hnostop' : ∀ z ∈ xs, stops z = false := fun z hz => hnostop z (List.mem_cons_of_mem _ hz)
      cases hx : isAddrParam x with
      | true =>
        rw [List.filter_cons_of_neg (by rw [hx]; exact Bool.false_ne_true)] at hcopied
        exact ih hcopied hhead' hext' ((checked_of_addr hx hturn).symm.trans hsame) hnostop' h
      | false =>
        rw [List.filter_cons_of_pos (by rw [hx]; rfl), List.forall₂_cons_left_iff] at hcopied
        obtain ⟨y, ys, hxy, hrest, rfl⟩ := hcopied
        obtain ⟨t₁, hgo, hchecked, hcalm⟩ := turn_copied hxy hsame hturn hx (hhead x List.mem_cons_self)
          (hext x List.mem_cons_self)
        obtain ⟨t', hscan, hsame', hcalm'⟩ := ih hrest hhead' hext' hchecked hnostop' h
        refine ⟨t', ?_, hsame', hcalm'.others.trans hcalm.others, fun a => (hcalm'.addrs a).trans (hcalm.addrs a)⟩
        rw [scan, hgo]
        exact hscan

/-- A list of addresses that are there is gone through. -/
theorem scan_addrs {asconfSupported : Bool} {xs : List Param} {s : Load}
    (hxs : ∀ x ∈ xs, isAddrParam x = true ∧ FitsAddr c x ∧
      (c.p.piece x.offset x.plen).isSome ∧ ∀ a ∈ c.listedAddr x, a ∈ s.dests.addrs)
    (hfound : ∀ a, c.found a = true) (hothers : ∀ a o, s.others a = some o → o.cookieWait = true) :
    ∃ t, scan (fun x s => s.turn c asconfSupported x) xs s = .ok t ∧ Passes s t := by
  induction xs generalizing s with
  | nil => exact ⟨s, rfl, rfl, fun _ h => h, hothers⟩
  | cons x xs ih =>
    obtain ⟨hx, hfits, hroom, hknown⟩ := hxs x List.mem_cons_self
    obtain ⟨t₁, hgo, hpass⟩ := turn_addr hx hfits hroom hknown hfound hothers
    obtain ⟨t, hscan, hpass'⟩ := ih (fun z hz => by
      obtain ⟨hz, hzfits, hzroom, hzknown⟩ := hxs z (List.mem_cons_of_mem _ hz)
      exact ⟨hz, hzfits, hzroom, fun a ha => hpass.addrs a (hzknown a ha)⟩) hpass.others
    refine ⟨t, ?_, hpass.checked.trans hpass'.checked, fun a ha => hpass'.addrs a (hpass.addrs a ha), hpass'.others⟩
    rw [scan, hgo]
    exact hscan

theorem scan_append {σ : Type} {f : Param → σ → Turn σ} {xs ys : List Param} {s t : σ}
    (hnostop : ∀ x ∈ xs, ∀ s, f x s ≠ .stop) (h : scan f xs s = .ok t) :
    scan f (xs ++ ys) s = scan f ys t := by
  induction xs generalizing s with
  | nil =>
    rw [← Except.ok.inj h]
    rfl
  | cons x xs ih =>
    rw [scan] at h
    rw [List.cons_append, scan]
    cases hturn : f x s with
    | stop => exact absurd hturn (hnostop x List.mem_cons_self s)
    | ret code =>
      rw [hturn] at h
      cases h
    | go s' =>
      rw [hturn] at h
      exact ih (fun z hz => hnostop z (List.mem_cons_of_mem _ hz)) h

structure Writes (c : LoadCall) (x : Param) (t : Tlv) : Prop where
  type : t.type = x.type
  length : t.length = x.plen
  value : t.value = c.bytes x

theorem LoadCall.length_bytes (c : LoadCall) (x : Param) : (c.bytes x).length = x.plen - 4 := by
  rw [LoadCall.bytes, List.length_map, List.length_range]

theorem exists_writes {xs : List Param} (hxs : ∀ x ∈ xs, x ∈ c.listed ∧ 4 ≤ x.plen) :
    ∃ ts, List.Forall₂ (Writes c) xs ts := by
  induction xs with
  | nil => exact ⟨[], List.Forall₂.nil⟩
  | cons x xs ih =>
    obtain ⟨ts, hts⟩ := ih fun y hy => hxs y (List.mem_cons_of_mem _ hy)
    obtain ⟨hx, hhead⟩ := hxs x List.mem_cons_self
    obtain ⟨htype, hplen⟩ := Tlv.lt_of_mem_walk (List.takeWhile_subset _ hx)
    have hlength : 4 + (c.bytes x).length = x.plen := by
      rw [LoadCall.length_bytes]
      omega
    exact ⟨⟨x.type, c.bytes x, htype, hlength ▸ hplen⟩ :: ts, List.Forall₂.cons ⟨rfl, hlength, rfl⟩ hts⟩

/-- Written parameters can be read where they were written. -/
theorem copied_place {xs : List Param} {ts : List Tlv} (hts : List.Forall₂ (Writes c) xs ts) (pre suf : Bytes)
    (hp : c'.p = pre ++ (Tlv.encode ts ++ suf)) :
    List.Forall₂ (Copied c c') xs (Tlv.place pre.length ts) := by
  induction hts generalizing pre with
  | nil => exact List.Forall₂.nil
  | @cons x t xs ts hxt _ ih =>
    rw [Tlv.encode_cons] at hp
    have hsize := Bytes.le_size32 t.length
    refine List.Forall₂.cons ⟨hxt.type, hxt.length, ?_, ?_⟩ ?_
    · have hread := Bytes.read_append_right pre (t.bytes.pad ++ Tlv.encode ts ++ suf) 4 t.value.length
      rw [List.append_assoc, t.read_value] at hread
      change c'.p.read (pre.length + 4) (t.length - 4) = c.bytes x
      rw [hp, List.append_assoc, Tlv.length, Nat.add_sub_cancel_left, ← hxt.value]
      exact hread
    · rw [Bytes.piece_isSome_iff, hp]
      change 0 < t.length ∧ pre.length + t.length ≤ _
      simp only [List.length_append, Bytes.length_pad, Tlv.length_bytes]
      have := t.four_le_length
      omega
    · have hrest := ih (pre ++ t.bytes.pad) (by rw [hp, List.append_assoc, List.append_assoc])
      rwa [List.length_append, Bytes.length_pad, Tlv.length_bytes] at hrest

def destsOf (as : List Addr) : Dests where
  nets := as.zipIdx.map fun y => ⟨y.2, y.1, true, false, false, false, false, false, some 0⟩
  numnets := as.length
  primary := none
  alternate := none
  lastDataChunkFrom := none
  lastControlChunkFrom := none
  fresh := as.length

theorem addrs_destsOf (as : List Addr) : (destsOf as).addrs = as := by
  unfold destsOf Dests.addrs
  rw [List.map_map]
  exact List.zipIdx_map_fst 0 as

/-- A call with some parameters, from a source whose association is found. -/
def rearranged (c : LoadCall) (ts : List Tlv) (src : Addr) (garbage : Bool) (others : Addr → Option Other) :
    LoadCall where
  p := Tlv.encode ts
  offset := 0
  limit := (Tlv.encode ts).length
  src := src
  behind := fun _ _ => 0
  asconfAckGarbage := garbage
  ipv4AddrLegal := c.ipv4AddrLegal
  ipv6AddrLegal := c.ipv6AddrLegal
  useNdata := c.useNdata
  freed := false
  found := fun _ => true
  others := others
  add := fun _ => ⟨true, some 0, true⟩
  reachable := fun _ => true
  keyAlloc := true

theorem params_rearranged (c : LoadCall) (ts : List Tlv) (src : Addr) (garbage : Bool)
    (others : Addr → Option Other) : (rearranged c ts src garbage others).params = Tlv.place 0 ts := by
  have hend : ∀ x ∈ Tlv.place 0 ts, x.offset + x.plen ≤ (Tlv.encode ts).length := by
    intro x hx
    simpa using Tlv.end_of_mem_place hx
  have hwalk : Tlv.walk 1 ([] ++ (Tlv.encode ts ++ [])) (Tlv.encode ts).length ((Tlv.encode ts).length + 1) 0 =
      Tlv.place 0 ts :=
    Tlv.walk_encode Nat.one_pos (by decide) [] [] ts hend (by simp) (Nat.lt_succ_of_le (Tlv.length_le_encode ts))
  rw [List.nil_append, List.append_nil] at hwalk
  exact hwalk

theorem exists_of_forall₂_right {α β : Type} {R : α → β → Prop} {xs : List α} {ys : List β}
    (h : List.Forall₂ R xs ys) {y : β} (hy : y ∈ ys) : ∃ x ∈ xs, R x y := by
  induction h with
  | nil => exact absurd hy List.not_mem_nil
  | @cons a b as bs hab _ ih =>
    rcases List.mem_cons.1 hy with rfl | hy
    · exact ⟨a, List.mem_cons_self, hab⟩
    · obtain ⟨x, hx, hxy⟩ := ih hy
      exact ⟨x, List.mem_cons_of_mem _ hx, hxy⟩

theorem contents_copied {xs ys : List Param} (h : List.Forall₂ (Copied c c') xs ys) :
    ys.map (fun y => (y.type, y.plen, c'.bytes y)) = xs.map fun x => (x.type, x.plen, c.bytes x) := by
  induction h with
  | nil => rfl
  | cons hxy _ ih => rw [List.map_cons, List.map_cons, ih, hxy.type, hxy.plen, hxy.bytes]

theorem Copied.stops (h : Copied c c' x y) : stops y = stops x := by
  unfold Nets.stops
  rw [h.type, h.plen]

theorem Copied.isAddrParam (h : Copied c c' x y) : isAddrParam y = isAddrParam x := by
  unfold Nets.isAddrParam
  rw [h.type]

/-- A call with the same parameters, where some of the addresses come first, then all that is no address and then
all addresses. -/
structure Rearranged (c c' : LoadCall) (lead : List Param) : Prop where
  restates : c'.Restates c
  listed : ∃ ys₁ ys₂ ys₃, c'.listed = ys₁ ++ (ys₂ ++ ys₃) ∧ List.Forall₂ (Copied c c') lead ys₁ ∧
    List.Forall₂ (Copied c c') (c.listed.filter fun x => !isAddrParam x) ys₂ ∧
    List.Forall₂ (Copied c c') (c.listed.filter isAddrParam) ys₃

theorem exists_rearranged (hhead : ∀ x ∈ c.listed, 4 ≤ x.plen) {lead : List Param}
    (hlead : ∀ x ∈ lead, x ∈ c.listed) (src : Addr) (garbage : Bool) (others : Addr → Option Other) :
    ∃ ts, Rearranged c (rearranged c ts src garbage others) lead := by
  have hfilter : ∀ (q : Param → Bool), ∀ x ∈ c.listed.filter q, x ∈ c.listed ∧ 4 ≤ x.plen := fun q x hx =>
    ⟨(List.mem_filter.1 hx).1, hhead x (List.mem_filter.1 hx).1⟩
  obtain ⟨ts₁, hts₁⟩ := exists_writes fun x hx => ⟨hlead x hx, hhead x (hlead x hx)⟩
  obtain ⟨ts₂, hts₂⟩ := exists_writes (hfilter fun x => !isAddrParam x)
  obtain ⟨ts₃, hts₃⟩ := exists_writes (hfilter isAddrParam)
  let c' := rearranged c (ts₁ ++ (ts₂ ++ ts₃)) src garbage others
  have hp : c'.p = Tlv.encode ts₁ ++ (Tlv.encode ts₂ ++ Tlv.encode ts₃) :=
    (Tlv.encode_append _ _).trans (congrArg _ (Tlv.encode_append _ _))
  have hcopied₁ : List.Forall₂ (Copied c c') lead (Tlv.place 0 ts₁) := copied_place hts₁ [] _ hp
  have hcopied₂ : List.Forall₂ (Copied c c') _ (Tlv.place (Tlv.encode ts₁).length ts₂) :=
    copied_place hts₂ (Tlv.encode ts₁) (Tlv.encode ts₃) hp
  have hcopied₃ : List.Forall₂ (Copied c c') (c.listed.filter isAddrParam)
      (Tlv.place (Tlv.encode ts₁ ++ Tlv.encode ts₂).length ts₃) := by
    apply copied_place hts₃ (Tlv.encode ts₁ ++ Tlv.encode ts₂) []
    rw [List.append_nil, List.append_assoc]
    exact hp
  have hparams : c'.params = Tlv.place 0 ts₁ ++ (Tlv.place (Tlv.encode ts₁).length ts₂ ++
      Tlv.place (Tlv.encode ts₁ ++ Tlv.encode ts₂).length ts₃) := by
    rw [params_rearranged, Tlv.place_append, Tlv.place_append, Nat.zero_add, List.length_append]
  have hall := List.rel_append hcopied₁ (List.rel_append hcopied₂ hcopied₃)
  have hsub : ∀ x, x ∈ lead ++ (c.listed.filter (fun x => !isAddrParam x) ++ c.listed.filter isAddrParam) ↔
      x ∈ c.listed := by
    intro x
    rw [List.mem_append, List.mem_append, List.mem_filter, List.mem_filter]
    constructor
    · exact fun h => h.elim (hlead x) fun h => h.elim And.left And.left
    · intro hx
      cases haddr : isAddrParam x with
      | true => exact .inr (.inr ⟨hx, rfl⟩)
      | false => exact .inr (.inl ⟨hx, rfl⟩)
  have hlisted : c'.listed = Tlv.place 0 ts₁ ++ (Tlv.place (Tlv.encode ts₁).length ts₂ ++
      Tlv.place (Tlv.encode ts₁ ++ Tlv.encode ts₂).length ts₃) := by
    rw [LoadCall.listed, hparams, List.takeWhile_eq_self_iff]
    intro y hy
    obtain ⟨x, hx, hxy⟩ := exists_of_forall₂_right hall hy
    rw [hxy.stops, stops_of_mem_listed ((hsub x).1 hx)]
    rfl
  refine ⟨ts₁ ++ (ts₂ ++ ts₃), ⟨fun y => ?_, rfl, rfl, rfl⟩, _, _, _, hlisted, hcopied₁, hcopied₂, hcopied₃⟩
  change y ∈ c'.contents ↔ _
  rw [LoadCall.contents, hlisted, contents_copied hall, LoadCall.contents, List.mem_map, List.mem_map]
  exact exists_congr fun x => and_congr_left' (hsub x)

theorem fitsAddr_copied (h : Copied c c' x y) (hc : c'.Restates c) (hx : FitsAddr c x) : FitsAddr c' y := by
  unfold FitsAddr
  rw [h.type, h.plen, hc.ipv4AddrLegal, hc.ipv6AddrLegal]
  exact hx

/-- A source that is a destination is taken. -/
theorem takeSource_known {d : Dests} (hfound : c.found c.src = true) (hothers : c.others c.src = none)
    (hd : c.src ∈ d.addrs) : ∃ d', takeSource c (markAll d) = .ok d' ∧ d'.addrs = d.addrs := by
  have hmem : c.src ∈ (markAll d).addrs := (Dests.markAll_addrs d).symm ▸ hd
  obtain ⟨n, hfind⟩ := Option.ne_none_iff_exists'.1 fun h => Dests.findnet_eq_none_iff.1 h hmem
  have hother : (Load.start c (markAll d) false).others c.src = none := hothers
  have hfind : (Load.start c (markAll d) false).dests.findnet c.src = some n := hfind
  have hlookup : (Load.start c (markAll d) false).lookup c c.src = .self n := by
    unfold Load.lookup
    rw [hother, if_pos hfound, hfind]
  have haddrs : (Load.clearNotInAssoc (markAll d) n).addrs = (markAll d).addrs :=
    Dests.update_addrs fun _ => rfl
  refine ⟨Load.clearNotInAssoc (markAll d) n, ?_, haddrs.trans (Dests.markAll_addrs d)⟩
  unfold takeSource
  rw [hlookup]

/-- The rearranged call is accepted as well. -/
theorem rearranged_accepted {d : Dests} {r : Accepted} (h : loadAddressesFromInit c before d = .ok r)
    (hhead : ∀ x ∈ c.listed, 4 ≤ x.plen)
    (hext : ∀ x ∈ c.listed, x.type = supportedChunkExt → x.plen ≤ paramBufferSize) {lead : List Param}
    (hlead : ∀ x ∈ lead, x ∈ c.listed ∧ isAddrParam x = true) (hr : Rearranged c c' lead)
    (hfound : ∀ a, c'.found a = true) (hothers : ∀ a o, c'.others a = some o → o.cookieWait = true)
    (hsrc : c'.others c'.src = none) (hfreed : c'.freed = false) (halloc : c'.keyAlloc = true) :
    ∃ d' r', loadAddressesFromInit c' before d' = .ok r' := by
  obtain ⟨s, hwalk, hcheck, -⟩ := loadAddressesFromInit_ok h
  obtain ⟨d₀, -, hscan⟩ := walkParams_ok hwalk
  have hturns := exists_turn_of_accepted h
  obtain ⟨ys₁, ys₂, ys₃, hlisted, hcopied₁, hcopied₂, hcopied₃⟩ := hr.listed
  have hnostop : ∀ y ∈ ys₁ ++ (ys₂ ++ ys₃), ∀ s : Load, s.turn c' before.asconf y ≠ .stop := fun y hy s =>
    Load.turn_of_stops.2 (stops_of_mem_listed (hlisted ▸ hy))
  let as := c'.src :: c.listed.filterMap c.listedAddr
  have hknown : ∀ x ∈ c.listed, ∀ y, Copied c c' x y → FitsAddr c' y ∧ ∀ a ∈ c'.listedAddr y, a ∈ as := by
    intro x hx y hxy
    obtain ⟨_, _, hturn⟩ := hturns x hx
    have hfits := fitsAddr_copied hxy hr.restates (fitsAddr_of_turn hturn)
    refine ⟨hfits, fun a ha => List.mem_cons_of_mem _ (List.mem_filterMap.2 ⟨x, hx, ?_⟩)⟩
    rw [listedAddr_congr hr.restates (fitsAddr_of_turn hturn) hfits hxy.type.symm hxy.bytes.symm]
    exact ha
  have haddrs : ∀ {xs ys : List Param}, List.Forall₂ (Copied c c') xs ys →
      (∀ x ∈ xs, x ∈ c.listed ∧ isAddrParam x = true) → ∀ {t : Load}, (∀ a ∈ as, a ∈ t.dests.addrs) →
      ∀ y ∈ ys, isAddrParam y = true ∧ FitsAddr c' y ∧ (c'.p.piece y.offset y.plen).isSome ∧
        ∀ a ∈ c'.listedAddr y, a ∈ t.dests.addrs := by
    intro xs ys hcopied hxs t ht y hy
    obtain ⟨x, hx, hxy⟩ := exists_of_forall₂_right hcopied hy
    obtain ⟨hfits, hlist⟩ := hknown x (hxs x hx).1 y hxy
    exact ⟨hxy.isAddrParam.trans (hxs x hx).2, hfits, hxy.room, fun a ha => ht a (hlist a ha)⟩
  have hsrcMem : c'.src ∈ (destsOf as).addrs := (addrs_destsOf as).symm ▸ List.mem_cons_self
  obtain ⟨d', hsource, hd'⟩ := takeSource_known (hfound _) hsrc hsrcMem
  rw [addrs_destsOf] at hd'
  obtain ⟨t₁, hscan₁, hpass₁⟩ : ∃ t, scan (fun y s => s.turn c' before.asconf y) ys₁
      (Load.start c' d' before.ndata) = .ok t ∧ Passes (Load.start c' d' before.ndata) t :=
    scan_addrs (haddrs hcopied₁ hlead fun a ha => hd'.symm ▸ ha) hfound hothers
  have hstart : (Load.start c d₀ before.ndata).checked = t₁.checked := hpass₁.checked
  obtain ⟨t₂, hscan₂, hchecked, hcalm⟩ := scan_copied hcopied₂ hhead hext hstart
    (fun x hx => stops_of_mem_listed hx) hscan
  have hkept : ∀ a ∈ as, a ∈ t₂.dests.addrs := fun a ha =>
    (hcalm.addrs a).2 (hpass₁.addrs a (hd'.symm ▸ ha))
  obtain ⟨t₃, hscan₃, hpass₃⟩ : ∃ t, scan (fun y s => s.turn c' before.asconf y) ys₃ t₂ = .ok t ∧ Passes t₂ t :=
    scan_addrs (haddrs hcopied₃ (fun x hx => List.mem_filter.1 hx) hkept) hfound
      (hcalm.others.symm ▸ hpass₁.others)
  have hall : walkParams c' before (destsOf as) = .ok t₃ := by
    rw [walkParams_eq hsource hfreed, hlisted,
      scan_append (fun y hy => hnostop y (List.mem_append_left _ hy)) hscan₁,
      scan_append (fun y hy => hnostop y (List.mem_append_right _ (List.mem_append_left _ hy))) hscan₂]
    exact hscan₃
  have hzero : t₃.check = 0 := by
    rw [← check_congr hpass₃.checked, ← check_congr hchecked]
    exact hcheck
  refine ⟨destsOf as, ?_⟩
  unfold loadAddressesFromInit
  rw [hall]
  dsimp only
  rw [hzero, if_neg (not_not.2 rfl), halloc]
  exact ⟨_, rfl⟩

theorem readIn_append (c : LoadCall) (xs ys : List Param) (chunk : BitVec 8) :
    readIn c (xs ++ ys) chunk = (readIn c xs chunk || readIn c ys chunk) :=
  List.any_append

theorem readIn_of_addr {xs : List Param} (h : ∀ x ∈ xs, isAddrParam x = true) (chunk : BitVec 8) :
    readIn c xs chunk = false := by
  unfold readIn
  rw [List.any_eq_false]
  intro x hx hread
  rw [Bool.and_eq_true, decide_eq_true_eq] at hread
  have haddr := isAddrParam_of_type hread.1 (by decide) (by decide)
  rw [h x hx] at haddr
  cases haddr

theorem listedAddr_of_not_addr (h : isAddrParam x = false) : c.listedAddr x = none := by
  have hne : ¬ (x.type = ipv4Address ∨ x.type = ipv6Address) := fun ht => by
    rw [isAddrParam_iff.2 ht] at h
    cases h
  exact listedAddr_of_type rfl (fun h4 => hne (.inl h4)) fun h6 => hne (.inr h6)

theorem isAddrParam_of_listedAddr {a : Addr} (h : c.listedAddr x = some a) : isAddrParam x = true := by
  cases haddr : isAddrParam x with
  | true => rfl
  | false =>
    rw [listedAddr_of_not_addr haddr] at h
    cases h

theorem ndataRead_append {xs ys : List Param} (h : ∀ x ∈ xs, c.listedAddr x = none)
    (others : Addr → Option Other) (inp : Bool) :
    ndataRead c others inp (xs ++ ys) = ((readIn c xs ndataChunk && inp) || ndataRead c others inp ys) := by
  induction xs with
  | nil => rfl
  | cons x xs ih =>
    have hx := h x List.mem_cons_self
    rw [List.cons_append, ndataRead, othersAfter_of_none _ hx, inpAfter_of_none _ _ hx, readIn_cons,
      Bool.and_or_distrib_right, ih (fun y hy => h y (List.mem_cons_of_mem _ hy)), Bool.or_assoc]

/-- Behind an address of another association I-DATA is read for the endpoint of that one. -/
theorem ndataRead_rearranged {a : Addr} {o : Other} (hr : Rearranged c c' [x]) (hx : isAddrParam x = true)
    (hlisted : ∀ y, Copied c c' x y → c'.listedAddr y = some a) (hothers : c'.others a = some o) :
    ndataRead c' c'.others c'.useNdata c'.listed = (extRead c' ndataChunk && o.useNdata) := by
  obtain ⟨ys₁, ys₂, ys₃, hall, hcopied₁, hcopied₂, hcopied₃⟩ := hr.listed
  obtain ⟨y, hxy, rfl⟩ : ∃ y, Copied c c' x y ∧ ys₁ = [y] := by
    rw [List.forall₂_cons_left_iff] at hcopied₁
    obtain ⟨y, ys, hxy, hnil, rfl⟩ := hcopied₁
    rw [List.forall₂_nil_left_iff.1 hnil]
    exact ⟨y, hxy, rfl⟩
  have hquiet : ∀ z ∈ ys₂, c'.listedAddr z = none := by
    intro z hz
    obtain ⟨w, hw, hwz⟩ := exists_of_forall₂_right hcopied₂ hz
    apply listedAddr_of_not_addr
    rw [hwz.isAddrParam]
    simpa using (List.mem_filter.1 hw).2
  have haddr : ∀ z ∈ ys₃, isAddrParam z = true := by
    intro z hz
    obtain ⟨w, hw, hwz⟩ := exists_of_forall₂_right hcopied₃ hz
    exact hwz.isAddrParam.trans (List.mem_filter.1 hw).2
  have hfirst : (decide (y.type = supportedChunkExt) && (Load.extTypes c' y).contains ndataChunk) = false := by
    have hy : ∀ z ∈ [y], isAddrParam z = true := fun z hz => by
      rw [List.mem_singleton.1 hz, hxy.isAddrParam, hx]
    have hread : readIn c' [y] ndataChunk = false := readIn_of_addr hy ndataChunk
    rw [readIn_cons, Bool.or_eq_false_iff] at hread
    exact hread.1
  have hinp : inpAfter c' c'.others c'.useNdata y = o.useNdata := by
    unfold inpAfter
    rw [hlisted y hxy]
    dsimp only
    rw [hothers]
  have hread : extRead c' ndataChunk = readIn c' ys₂ ndataChunk := by
    change readIn c' c'.listed ndataChunk = _
    rw [hall, readIn_append, readIn_append, readIn_of_addr haddr, Bool.or_false, readIn_cons, hfirst]
    rfl
  rw [hread, hall, List.singleton_append, ndataRead, hfirst, hinp, ndataRead_append hquiet,
    ndataRead_of_not_read (readIn_of_addr haddr ndataChunk)]
  simp only [Bool.false_and, Bool.false_or, Bool.or_false]

def elsewhere (a : Addr) (ndata : Bool) (b : Addr) : Option Other :=
  if b = a then some ⟨0, true, ndata⟩ else none

theorem cookieWait_elsewhere {a b : Addr} {ndata : Bool} {o : Other} (h : elsewhere a ndata b = some o) :
    o.cookieWait = true := by
  unfold elsewhere at h
  split at h
  · rw [← Option.some.inj h]
  · cases h

theorem settled_of_negotiates {d : Dests} {r : Accepted} (h : loadAddressesFromInit c before d = .ok r)
    (hhead : ∀ x ∈ c.listed, 4 ≤ x.plen) (hsized : c.Sized) (hexact : ExactlyNegotiated c before r) :
    Settled c before := by
  have hext : ∀ x ∈ c.listed, x.type = supportedChunkExt → x.plen ≤ paramBufferSize := fun x hx => (hsized x hx).2
  have hannounced : ∀ {c' d' r'}, c'.Restates c → loadAddressesFromInit c' before d' = .ok r' →
      r'.features = announced c before := fun hsame h' =>
    (hexact.unordered _ _ _ hsame h').trans hexact.features
  constructor
  · intro hbefore hauth hnames
    have hnil : ∀ x ∈ ([] : List Param), x ∈ c.listed := fun x hx => absurd hx List.not_mem_nil
    obtain ⟨ts, hr⟩ := exists_rearranged hhead hnil (.v4 0x0a000001) true fun _ => none
    obtain ⟨d', r', h'⟩ := rearranged_accepted h hhead hext (fun x hx => absurd hx List.not_mem_nil) hr
      (fun _ => rfl) nofun rfl rfl rfl
    have hfeatures := hannounced hr.restates h'
    have hread := (sized_congr hr.restates hsized).extRead chunkAsconf
    rw [names_congr hr.restates.contents, hnames] at hread
    have hasconf := (loadAddressesFromInit_negotiated h').asconf
    rw [hfeatures, hbefore, hauth, hread] at hasconf
    have hall : (announced c before).asconf = true := hasconf
    have hall : (before.asconf && (announced c before).auth && c.names supportedChunkExt chunkAsconf &&
      c.names supportedChunkExt chunkAsconfAck && c.names chunkList chunkAsconf &&
      c.names chunkList chunkAsconfAck) = true := hall
    simp only [Bool.and_eq_true] at hall
    exact hall.1.1.2
  · intro hbefore hnames x hx
    by_contra hne
    obtain ⟨a, ha⟩ := Option.ne_none_iff_exists'.1 hne
    have haddr := isAddrParam_of_listedAddr ha
    have hlead : ∀ z ∈ [x], z ∈ c.listed ∧ isAddrParam z = true := fun z hz =>
      List.mem_singleton.1 hz ▸ ⟨hx, haddr⟩
    obtain ⟨src, hsrc⟩ : ∃ src : Addr, src ≠ a := by
      by_cases ha : a = .v4 0x0a000001
      · exact ⟨.v4 0x0a000002, by rw [ha]; decide⟩
      · exact ⟨_, Ne.symm ha⟩
    obtain ⟨ts, hr⟩ := exists_rearranged hhead (fun z hz => (hlead z hz).1) src false
      (elsewhere a (!c.useNdata))
    obtain ⟨d', r', h'⟩ := rearranged_accepted h hhead hext hlead hr (fun _ => rfl)
      (fun _ _ => cookieWait_elsewhere) (if_neg hsrc) rfl rfl
    obtain ⟨_, _, hturn⟩ := exists_turn_of_accepted h x hx
    have hfits := fitsAddr_of_turn hturn
    have hlisted : ∀ y, Copied c (rearranged c ts src false (elsewhere a (!c.useNdata))) x y →
        (rearranged c ts src false (elsewhere a (!c.useNdata))).listedAddr y = some a := by
      intro y hxy
      rw [← listedAddr_congr hr.restates hfits (fitsAddr_copied hxy hr.restates hfits) hxy.type.symm
        hxy.bytes.symm, ha]
    have hread := (sized_congr hr.restates hsized).extRead ndataChunk
    rw [names_congr hr.restates.contents, hnames] at hread
    have hndata := (loadAddressesFromInit_negotiated h').ndata
    rw [hannounced hr.restates h', ndataRead_rearranged hr haddr hlisted (if_pos rfl), hread, hbefore] at hndata
    change (before.ndata || (c.names supportedChunkExt ndataChunk && c.useNdata)) = _ at hndata
    rw [hbefore, hnames] at hndata
    cases huse : c.useNdata with
    | true => simp [huse] at hndata
    | false => simp [huse] at hndata

/-- Everything is supported, I-DATA not yet. -/
def allFeatures : Features := ⟨true, true, true, true, true, true, true, false⟩

/-- ECN, and the chunk types of PR-SCTP and of I-DATA. -/
def quietParams : Bytes := [0x80, 0, 0, 4, 0x80, 0x08, 0, 6, 0xc0, 0x11, 0, 0]

/-- RANDOM, HMAC-ALGO, CHUNKS with both chunk types, and SUPPORTED-EXTENSIONS with AUTH and ASCONF, but without
ASCONF-ACK. -/
def halfAsconf : Bytes :=
  [0x80, 0x02, 0, 36] ++ List.replicate 32 7 ++ [0x80, 0x04, 0, 6, 0, 1, 0, 0] ++
    [0x80, 0x03, 0, 6, 0xc1, 0x80, 0, 0] ++ [0x80, 0x08, 0, 6, 0xc1, 0x0f, 0, 0]

end Sctp.Nets
