import Sctp.Asconf.Model

/-! When an ASCONF is applied once and answered. -/
namespace Sctp.Asconf

open Bytes (size32)

variable {cfg : AsconfConfig} {c : Call} {s : Assoc} {l : Loop}

/-- What one ASCONF has to do, applied to the association `s`. -/
structure Answered (s : Assoc) (c : Call) (h : Handled) : Prop where
  inOrder : h.assoc.nets ≠ s.nets → c.serialNumber = s.asconfSeqIn + 1
  acked : h.assoc.asconfSeqIn ≠ s.asconfSeqIn →
    h.assoc.asconfSeqIn = c.serialNumber ∧ ∃ a ∈ h.assoc.asconfAckSent, a.serialNumber = c.serialNumber
  silent : h.stored = false → h.assoc.asconfSeqIn = s.asconfSeqIn ∧ h.assoc.nets = s.nets
  /-- The reply is stored or freed, and not both. -/
  once : h.replied = true → (if h.stored then 1 else 0) + h.freed = 1
  unused : h.usedAfterFree = false
  advances : h.visited.IsChain fun a b => a + 4 ≤ b
  inside : h.reach ≤ c.limit
  /-- No timers are started for a destination that was never set. -/
  sound : h.assoc.wildNet = true → s.wildNet = true

def HandledWell (cfg : AsconfConfig) (s : Assoc) (c : Call) : Prop :=
  ∃ h, handleAsconf cfg c s = some h ∧ Answered s c h

/-- The parameter at an offset has a body, fits into the buffer and ends inside the chunk, and so
does the address in it. -/
structure Fits (c : Call) (o : ℕ) : Prop where
  body : 4 < c.packet.u16 (o + 2)
  buffer : c.packet.u16 (o + 2) ≤ paramBufferSize
  chunk : o + c.packet.u16 (o + 2) ≤ c.limit
  packet : o + c.packet.u16 (o + 2) ≤ c.packet.length
  read : paramEnd c.packet o ≤ c.limit

/-- Nothing is looked at behind the parameter at an offset. -/
def IsLast (c : Call) (o : ℕ) : Prop :=
  stops c.packet o = true ∨ c.limit ≤ nextParam c.packet o ∨
    c.packet.length < nextParam c.packet o + 8

instance (c : Call) (o : ℕ) : Decidable (IsLast c o) :=
  inferInstanceAs (Decidable (_ ∨ _ ∨ _))

def added (cfg : AsconfConfig) (c : Call) (o : ℕ) : Option Addr :=
  if c.packet.u16 o = addIpAddress then
    match inner c.packet (o + 8) with
    | .addr a => if a.isBad then none else some (if a.isZero && cfg.natFriendly then c.src else a)
    | _ => none
  else none

/-- The parameters from an offset on fit, and none of them adds an address that is listed or that one
before it adds. -/
inductive ParamsFit (cfg : AsconfConfig) (c : Call) : ℕ → List Addr → Prop
  | last {o : ℕ} {listed : List Addr} : Fits c o → (∀ a ∈ added cfg c o, a ∉ listed) → IsLast c o →
    ParamsFit cfg c o listed
  | more {o : ℕ} {listed : List Addr} : Fits c o → (∀ a ∈ added cfg c o, a ∉ listed) →
    ¬IsLast c o → ParamsFit cfg c (nextParam c.packet o) ((added cfg c o).toList ++ listed) →
    ParamsFit cfg c o listed

/-- The checks of the serial number let the ASCONF through. -/
def Accepted (s : Assoc) (c : Call) : Prop :=
  8 ≤ c.chunkLength ∧ c.serialNumber = s.asconfSeqIn + 1

/-- If the ASCONF is taken, there is memory for its reply, there is a lookup address, and the
parameters fit and add new addresses. -/
structure Regular (cfg : AsconfConfig) (s : Assoc) (c : Call) : Prop where
  reply : c.replyAlloc = true
  ack : c.ackAlloc = true
  lookup : c.offset + 12 ≤ c.packet.length
  params : c.firstParam + 8 ≤ c.packet.length → ParamsFit cfg c c.firstParam s.nets

theorem foldl_removeNet_asconfSeqIn (s : Assoc) (as : List Addr) :
    (as.foldl Assoc.removeNet s).asconfSeqIn = s.asconfSeqIn := by
  induction as generalizing s with
  | nil => rfl
  | cons a as ih => exact ih (s.removeNet a)

theorem addRemoteAddr_asconfSeqIn {s' : Assoc} {net : Option Addr} {a : Addr} {alloc : Bool}
    (h : s.addRemoteAddr a alloc = some (s', net)) : s'.asconfSeqIn = s.asconfSeqIn := by
  unfold Assoc.addRemoteAddr at h
  split_ifs at h
  · cases h
    rfl
  · cases h
    rfl

theorem delRemoteAddr_asconfSeqIn {s' : Assoc} {a : Addr} (h : s.delRemoteAddr a = some s') :
    s'.asconfSeqIn = s.asconfSeqIn := by
  unfold Assoc.delRemoteAddr at h
  split_ifs at h
  · cases h
    rfl
  · cases h
    rfl

theorem delRemoteAddrsExcept_asconfSeqIn {s' : Assoc} {a : Addr}
    (h : s.delRemoteAddrsExcept a = some s') : s'.asconfSeqIn = s.asconfSeqIn := by
  unfold Assoc.delRemoteAddrsExcept at h
  split_ifs at h
  cases h
  exact foldl_removeNet_asconfSeqIn _ _

theorem processAsconfAddIp_asconfSeqIn (o : ℕ) (required : Bool) :
    (processAsconfAddIp cfg c o required s).1.asconfSeqIn = s.asconfSeqIn := by
  unfold processAsconfAddIp
  split
  · rfl
  · rfl
  dsimp only
  split
  · rfl
  split
  · rfl
  · rename_i h
    have hseq := addRemoteAddr_asconfSeqIn h
    exact hseq

theorem processAsconfDeleteIp_asconfSeqIn (o : ℕ) (required : Bool) :
    (processAsconfDeleteIp cfg c o required s).1.asconfSeqIn = s.asconfSeqIn := by
  unfold processAsconfDeleteIp
  split
  · rfl
  · rfl
  split
  · rfl
  split
  · split
    · rfl
    · rename_i h
      exact delRemoteAddrsExcept_asconfSeqIn h
  · split
    · rfl
    · rename_i h
      exact delRemoteAddr_asconfSeqIn h

/-- No parameter changes the serial number. -/
@[simp] theorem processParam_asconfSeqIn (o : ℕ) (required : Bool) :
    (processParam cfg c o required s).1.asconfSeqIn = s.asconfSeqIn := by
  unfold processParam
  split
  · exact processAsconfAddIp_asconfSeqIn o required
  split
  · exact processAsconfDeleteIp_asconfSeqIn o required
  split
  · rfl
  · rfl

theorem foldl_removeNet_kept (s : Assoc) (as : List Addr) :
    (∀ a ∈ (as.foldl Assoc.removeNet s).nets, a ∈ s.nets) ∧
      (as.foldl Assoc.removeNet s).wildNet = s.wildNet := by
  induction as generalizing s with
  | nil => exact ⟨fun _ h => h, rfl⟩
  | cons b as ih =>
    obtain ⟨hnets, hwild⟩ := ih (s.removeNet b)
    exact ⟨fun a ha => List.mem_of_mem_erase (hnets a ha), hwild⟩

theorem delRemoteAddr_kept {s' : Assoc} {b : Addr} (h : s.delRemoteAddr b = some s') :
    (∀ a ∈ s'.nets, a ∈ s.nets) ∧ s'.wildNet = s.wildNet := by
  unfold Assoc.delRemoteAddr at h
  split_ifs at h
  · cases h
    exact ⟨fun a ha => List.mem_of_mem_erase ha, rfl⟩
  · cases h
    exact ⟨fun _ h => h, rfl⟩

theorem delRemoteAddrsExcept_kept {s' : Assoc} {b : Addr} (h : s.delRemoteAddrsExcept b = some s') :
    (∀ a ∈ s'.nets, a ∈ s.nets) ∧ s'.wildNet = s.wildNet := by
  unfold Assoc.delRemoteAddrsExcept at h
  split_ifs at h
  cases h
  exact foldl_removeNet_kept _ _

theorem addRemoteAddr_new {s' : Assoc} {net : Option Addr} {b : Addr} {alloc : Bool}
    (hb : b ∉ s.nets) (h : s.addRemoteAddr b alloc = some (s', net)) :
    s' = { s with nets := s.nets ++ [b] } ∧ net = some b := by
  unfold Assoc.addRemoteAddr at h
  rw [if_neg hb] at h
  split_ifs at h
  obtain ⟨hs', hnet⟩ := Prod.mk.inj (Option.some.inj h)
  exact ⟨hs'.symm, hnet.symm⟩

/-- A parameter that adds no address that is there: it makes destinations of the address at most, and
no timers are started for another one. -/
theorem processParam_kept {o : ℕ} (hnew : ∀ a ∈ added cfg c o, a ∉ s.nets) (required : Bool) :
    (∀ a ∈ (processParam cfg c o required s).1.nets, a ∈ added cfg c o ∨ a ∈ s.nets) ∧
      (processParam cfg c o required s).1.wildNet = s.wildNet := by
  have hsame : (∀ a ∈ s.nets, a ∈ added cfg c o ∨ a ∈ s.nets) ∧ s.wildNet = s.wildNet :=
    ⟨fun _ h => .inr h, rfl⟩
  unfold processParam
  by_cases hadd : c.packet.u16 o = addIpAddress
  · rw [if_pos hadd]
    unfold added at hnew ⊢
    rw [if_pos hadd] at hnew ⊢
    unfold processAsconfAddIp
    cases hinner : inner c.packet (o + 8) with
    | badLength => exact ⟨fun _ h => .inr h, rfl⟩
    | unknown => exact ⟨fun _ h => .inr h, rfl⟩
    | addr a =>
      rw [hinner] at hnew
      dsimp only at hnew ⊢
      by_cases hbad : a.isBad = true
      · rw [if_pos hbad, if_pos hbad]
        exact ⟨fun _ h => .inr h, rfl⟩
      · rw [if_neg hbad] at hnew
        rw [if_neg hbad, if_neg hbad]
        cases hr : s.addRemoteAddr (if (a.isZero && cfg.natFriendly) = true then c.src else a)
            (c.netAlloc o) with
        | none => exact ⟨fun _ h => .inr h, rfl⟩
        | some r =>
          obtain ⟨s', net⟩ := r
          obtain ⟨rfl, rfl⟩ := addRemoteAddr_new (hnew _ rfl) hr
          refine ⟨fun b hb => ?_, Bool.or_false _⟩
          obtain hb | hb := List.mem_append.1 hb
          · exact .inr hb
          · exact .inl (congrArg some (List.mem_singleton.1 hb).symm)
  · rw [if_neg hadd]
    split
    · unfold processAsconfDeleteIp
      split
      · exact hsame
      · exact hsame
      split
      · exact hsame
      split
      · split
        · exact hsame
        · rename_i h
          obtain ⟨hnets, hwild⟩ := delRemoteAddrsExcept_kept h
          exact ⟨fun a ha => .inr (hnets a ha), hwild⟩
      · split
        · exact hsame
        · rename_i h
          obtain ⟨hnets, hwild⟩ := delRemoteAddr_kept h
          exact ⟨fun a ha => .inr (hnets a ha), hwild⟩
    split
    · exact hsame
    · exact hsame

/-- The next turn is at the next parameter, whose header is there. -/
theorem endTurn_next {l' : Loop} (h : endTurn c l = .next l') :
    l' = { l with offset := nextParam c.packet l.offset } ∧
      nextParam c.packet l.offset + 8 ≤ c.packet.length := by
  unfold endTurn at h
  split_ifs at h with _ hheader
  cases h
  refine ⟨rfl, ?_⟩
  rw [Bool.not_eq_true, Option.isNone_eq_false_iff, Bytes.piece_isSome_iff] at hheader
  exact hheader.2

theorem endTurn_sendReply (h : l.asconfLimit ≤ nextParam c.packet l.offset ∨
    c.packet.length < nextParam c.packet l.offset + 8) :
    endTurn c l = .sendReply { l with offset := nextParam c.packet l.offset } := by
  unfold endTurn
  split
  · rfl
  rename_i hlimit
  rw [if_pos]
  rw [Option.isNone_iff_eq_none, Bytes.piece_eq_none_iff]
  exact .inr (h.resolve_left hlimit)

theorem endTurn_moves (hlimit : nextParam c.packet l.offset < l.asconfLimit)
    (hpacket : nextParam c.packet l.offset + 8 ≤ c.packet.length) :
    endTurn c l = .next { l with offset := nextParam c.packet l.offset } := by
  unfold endTurn
  rw [if_neg (not_le.2 hlimit), if_neg]
  rw [Option.isNone_iff_eq_none, Bytes.piece_eq_none_iff]
  omega

@[simp] theorem freeReply_offset (l : Loop) : l.freeReply.offset = l.offset := rfl

@[simp] theorem addResult_offset (l : Loop) (r : Option Response) :
    (l.addResult r).offset = l.offset := by
  cases r with
  | none => rfl
  | some r => rfl

@[simp] theorem applyParam_offset (l : Loop) : (applyParam cfg c l).offset = l.offset :=
  addResult_offset _ _

/-- A turn that is followed by another one goes at least four bytes on. -/
theorem turn_next {l' : Loop} (h : turn cfg c l = .next l') :
    l.offset + 4 ≤ l'.offset ∧ l'.offset + 8 ≤ c.packet.length := by
  unfold turn at h
  dsimp only at h
  split_ifs at h with hlimit hbuffer hshort hpiece hpiece
  · obtain ⟨rfl, hlen⟩ := endTurn_next h
    have hbody := Bytes.four_le_size32 (Bytes.piece_isSome_iff.1
      (Option.isNone_eq_false_iff.1 (Bool.not_eq_true _ ▸ hpiece))).1
    simp only [applyParam_offset, freeReply_offset] at hlen ⊢
    exact ⟨Nat.add_le_add_left hbody _, hlen⟩
  · obtain ⟨rfl, hlen⟩ := endTurn_next h
    have hbody := Bytes.four_le_size32 (Bytes.piece_isSome_iff.1
      (Option.isNone_eq_false_iff.1 (Bool.not_eq_true _ ▸ hpiece))).1
    simp only [applyParam_offset] at hlen ⊢
    exact ⟨Nat.add_le_add_left hbody _, hlen⟩

theorem loop_isSome (n : ℕ) (h : c.packet.length < l.offset + n) (hn : 0 < n) :
    (loop cfg c n l).isSome := by
  induction n generalizing l with
  | zero => omega
  | succ n ih =>
    unfold loop
    cases hturn : turn cfg c l with
    | next l' =>
      obtain ⟨hadvance, hlen⟩ := turn_next hturn
      exact ih (by omega) (by omega)
    | sendReply l' => rfl
    | returned l' => rfl

/-- What holds before each turn, when the destinations are among those listed. -/
structure Clean (s : Assoc) (c : Call) (listed : List Addr) (l : Loop) : Prop where
  freed : l.freed = 0
  unused : l.usedAfterFree = false
  advances : (l.visited ++ [l.offset]).IsChain fun a b => a + 4 ≤ b
  inside : l.reach ≤ c.limit
  serial : l.assoc.asconfSeqIn = c.serialNumber
  nets : ∀ a ∈ l.assoc.nets, a ∈ listed
  sound : l.assoc.wildNet = true → s.wildNet = true

variable {listed : List Addr}

theorem Clean.start (s : Assoc) (c : Call) : Clean s c s.nets (c.start (s.take c)) where
  freed := rfl
  unused := rfl
  advances := List.isChain_singleton _
  inside := Nat.zero_le _
  serial := rfl
  nets _ h := h
  sound h := h

/-- A response keeps the books of a reply that was not freed. -/
theorem Clean.addResult (h : Clean s c listed l) (r : Option Response) :
    Clean s c listed (l.addResult r) := by
  cases r with
  | none => exact h
  | some r =>
    constructor
    · exact h.freed
    · change (l.usedAfterFree || l.freed != 0) = false
      rw [h.unused, h.freed]
      rfl
    · exact h.advances
    · exact h.inside
    · exact h.serial
    · exact h.nets
    · exact h.sound

theorem addResult_asconfLimit (l : Loop) (r : Option Response) :
    (l.addResult r).asconfLimit = l.asconfLimit := by
  cases r with
  | none => rfl
  | some r => rfl

theorem addResult_setOffset (l : Loop) (r : Option Response) (o : ℕ) :
    { l.addResult r with offset := o } = Loop.addResult { l with offset := o } r := by
  cases r with
  | none => rfl
  | some r => rfl

def visit (l : Loop) : Loop :=
  { l with visited := l.visited ++ [l.offset], reach := max l.reach (l.offset + 4) }

def advance (cfg : AsconfConfig) (c : Call) (l : Loop) : Loop :=
  { applyParam cfg c (visit l) with
    offset := nextParam c.packet (applyParam cfg c (visit l)).offset }

theorem advance_offset (l : Loop) : (advance cfg c l).offset = nextParam c.packet l.offset :=
  congrArg (nextParam c.packet) (applyParam_offset (visit l))

/-- The loop behind the effect of a parameter, without the response. -/
def applied (cfg : AsconfConfig) (c : Call) (l : Loop) : Loop :=
  { visit l with
    offset := nextParam c.packet l.offset
    assoc := (processParam cfg c l.offset l.error l.assoc).1
    asconfLimit := if stops c.packet l.offset then l.offset else l.asconfLimit
    reach := max (visit l).reach (paramEnd c.packet l.offset) }

theorem advance_eq (l : Loop) : advance cfg c l =
    (applied cfg c l).addResult (processParam cfg c l.offset l.error l.assoc).2 := by
  unfold advance
  rw [applyParam_offset]
  exact addResult_setOffset _ _ _

theorem turn_fits (h : Fits c l.offset) (hlimit : l.asconfLimit = c.limit) :
    turn cfg c l = endTurn c (applyParam cfg c (visit l)) := by
  have hpiece : (c.packet.piece l.offset (c.packet.u16 (l.offset + 2))).isSome :=
    Bytes.piece_isSome_iff.2 ⟨Nat.zero_lt_of_lt h.body, h.packet⟩
  unfold turn
  rw [if_neg, if_neg (not_lt.2 h.buffer)]
  · dsimp only
    rw [if_neg (not_le.2 h.body), if_neg]
    · rfl
    · rw [Option.isNone_eq_false_iff.2 hpiece]
      exact Bool.false_ne_true
  · dsimp only
    rw [hlimit]
    exact not_lt.2 h.chunk

/-- Behind the parameter the loop is where the next one is. -/
theorem Clean.advance (h : Clean s c listed l) (hf : Fits c l.offset)
    (hnew : ∀ a ∈ added cfg c l.offset, a ∉ listed) :
    Clean s c ((added cfg c l.offset).toList ++ listed) (advance cfg c l) := by
  rw [advance_eq]
  have habsent : ∀ a ∈ added cfg c l.offset, a ∉ l.assoc.nets := fun a ha hin => hnew a ha (h.nets a hin)
  obtain ⟨hnets, hwild⟩ := processParam_kept habsent l.error
  have happlied : Clean s c ((added cfg c l.offset).toList ++ listed) (applied cfg c l) := by
    constructor
    · exact h.freed
    · exact h.unused
    · rw [List.isChain_append]
      refine ⟨h.advances, List.isChain_singleton _, ?_⟩
      intro a ha b hb
      obtain rfl : b = nextParam c.packet l.offset := (Option.some.inj hb).symm
      obtain rfl : l.offset = a := by
        have ha : (l.visited ++ [l.offset]).getLast? = some a := ha
        rw [List.getLast?_concat] at ha
        exact Option.some.inj ha
      have := Bytes.four_le_size32 (Nat.zero_lt_of_lt hf.body)
      unfold nextParam
      omega
    · have hheader := hf.body
      have hchunk := hf.chunk
      exact max_le (max_le h.inside (by omega)) hf.read
    · exact (processParam_asconfSeqIn _ _).trans h.serial
    · intro a ha
      obtain ha | ha := hnets a ha
      · exact List.mem_append_left _ (Option.mem_toList.2 ha)
      · exact List.mem_append_right _ (h.nets a ha)
    · exact fun ht => h.sound (hwild.symm.trans ht)
  exact happlied.addResult _

/-- A type that says to stop moves the limit. -/
theorem applyParam_asconfLimit (cfg : AsconfConfig) (c : Call) (l : Loop) :
    (applyParam cfg c (visit l)).asconfLimit =
      if stops c.packet l.offset then l.offset else l.asconfLimit :=
  addResult_asconfLimit _ _

theorem endTurn_last (hlimit : l.asconfLimit = c.limit) (hlast : IsLast c l.offset) :
    endTurn c (applyParam cfg c (visit l)) = .sendReply (advance cfg c l) := by
  apply endTurn_sendReply
  rw [applyParam_asconfLimit, applyParam_offset]
  obtain hstop | hend | hpacket := hlast
  · rw [if_pos hstop]
    exact .inl (Nat.le_add_right _ _)
  · split
    · exact .inl (Nat.le_add_right _ _)
    · exact .inl (hlimit.trans_le hend)
  · exact .inr hpacket

theorem endTurn_more (hlimit : l.asconfLimit = c.limit) (hlast : ¬IsLast c l.offset) :
    endTurn c (applyParam cfg c (visit l)) = .next (advance cfg c l) := by
  unfold IsLast at hlast
  push Not at hlast
  obtain ⟨hstop, hend, hpacket⟩ := hlast
  apply endTurn_moves
  · rw [applyParam_asconfLimit, applyParam_offset, if_neg hstop, hlimit]
    exact hend
  · rw [applyParam_offset]
    exact hpacket

/-- A loop over parameters that fit comes to its reply. -/
theorem loop_paramsFit {o : ℕ} (h : ParamsFit cfg c o listed) (n : ℕ) (hclean : Clean s c listed l)
    (ho : l.offset = o) (hlimit : l.asconfLimit = c.limit) (hfuel : c.packet.length < l.offset + n) :
    ∃ l' listed', loop cfg c n l = some (.sendReply l') ∧ Clean s c listed' l' := by
  induction h generalizing l n with
  | last hfits hnew hlast =>
    subst ho
    obtain ⟨m, rfl⟩ : ∃ m, n = m + 1 := ⟨n - 1, by have := hfits.packet; omega⟩
    refine ⟨advance cfg c l, _, ?_, hclean.advance hfits hnew⟩
    rw [loop, turn_fits hfits hlimit, endTurn_last hlimit hlast]
  | more hfits hnew hlast _ ih =>
    subst ho
    obtain ⟨m, rfl⟩ : ∃ m, n = m + 1 := ⟨n - 1, by have := hfits.packet; omega⟩
    have hstep : turn cfg c l = .next (advance cfg c l) :=
      (turn_fits hfits hlimit).trans (endTurn_more hlimit hlast)
    have hmove := (turn_next hstep).1
    have hstop : stops c.packet l.offset ≠ true := fun h => hlast (.inl h)
    obtain ⟨l', listed', hl', hclean'⟩ := ih m (hclean.advance hfits hnew) (advance_offset l)
      ((applyParam_asconfLimit cfg c l).trans ((if_neg hstop).trans hlimit)) (by omega)
    refine ⟨l', listed', ?_, hclean'⟩
    rw [loop, hstep]
    exact hl'

theorem sendReply_answered (hs : Accepted s c) (hack : c.ackAlloc = true)
    (h : Clean s c listed l) : Answered s c (sendReply c l) := by
  unfold sendReply
  rw [if_pos hack]
  constructor
  · exact fun _ => hs.2
  · intro _
    exact ⟨h.serial, _, List.mem_append_right _ (List.mem_singleton.2 rfl), rfl⟩
  · intro hstored
    cases hstored
  · intro _
    change 1 + l.freed = 1
    rw [h.freed]
  · change (l.usedAfterFree || l.freed != 0) = false
    rw [h.unused, h.freed]
    rfl
  · exact h.advances.left_of_append
  · exact h.inside
  · exact h.sound

theorem ignored_answered : Answered s c (.ignored s) where
  inOrder h := absurd rfl h
  acked h := absurd rfl h
  silent _ := ⟨rfl, rfl⟩
  once h := by cases h
  unused := rfl
  advances := List.isChain_nil
  inside := Nat.zero_le _
  sound h := h

/-- Every ASCONF is handled in finitely many turns. -/
theorem handleAsconf_isSome (cfg : AsconfConfig) (c : Call) (s : Assoc) :
    (handleAsconf cfg c s).isSome := by
  unfold handleAsconf processAsconf
  split
  · rfl
  split
  · rfl
  split
  · rfl
  split
  · rfl
  split
  · rfl
  split
  · rfl
  · rw [Option.isSome_map]
    exact loop_isSome _ (by omega) (by omega)

theorem handleAsconf_refused (h : ¬Accepted s c) : handleAsconf cfg c s = some (.ignored s) := by
  unfold handleAsconf
  split
  · rfl
  split
  · rfl
  rename_i hshort _
  rw [if_pos]
  intro hserial
  exact h ⟨not_lt.1 hshort, hserial⟩

theorem handleAsconf_accepted (h : Accepted s c) :
    handleAsconf cfg c s = processAsconf cfg c (s.take c) := by
  have hnew : ¬tsnGe s.asconfSeqIn c.serialNumber = true := by
    rw [h.2, tsnGe_iff]
    have hback : s.asconfSeqIn - (s.asconfSeqIn + 1) = -1 := by bv_omega
    rw [hback]
    decide
  unfold handleAsconf
  rw [if_neg (not_lt.2 h.1), if_neg hnew, if_neg (not_not.2 h.2)]

theorem handleAsconf_regular (hs : Accepted s c) (h : Regular cfg s c) : HandledWell cfg s c := by
  have hclean := Clean.start s c
  have hlookup : ¬(c.packet.piece (c.offset + 8) 4).isNone = true := by
    rw [Option.isNone_iff_eq_none, Bytes.piece_eq_none_iff]
    have := h.lookup
    omega
  unfold HandledWell
  rw [handleAsconf_accepted hs]
  unfold processAsconf
  rw [h.reply, if_neg hlookup]
  by_cases hfirst : (c.packet.piece c.firstParam 8).isNone = true
  · refine ⟨_, if_pos hfirst, sendReply_answered hs h.ack hclean⟩
  · rw [Option.isNone_iff_eq_none, Bytes.piece_eq_none_iff] at hfirst
    obtain ⟨l', _, hl', hclean'⟩ := loop_paramsFit (h.params (by omega)) (c.packet.length + 1)
      hclean rfl rfl (by omega)
    refine ⟨sendReply c l', ?_, sendReply_answered hs h.ack hclean'⟩
    rw [if_neg, if_neg, hl']
    · rfl
    · rw [Option.isNone_iff_eq_none, Bytes.piece_eq_none_iff]
      exact hfirst
    · exact Bool.false_ne_true

/-- An ASCONF that adds an address, with serial number 1. -/
def addingAsconf : Call where
  packet :=
    [0xc1, 0, 0, 32, 0, 0, 0, 1, 0, 5, 0, 8, 10, 0, 0, 1,
      0xc0, 1, 0, 16, 0, 0, 0, 7, 0, 5, 0, 8, 10, 0, 0, 2]
  offset := 0
  src := .v4 0x0a000001
  first := true
  replyAlloc := true
  ackAlloc := true
  responseAlloc _ := true
  netAlloc _ := true

/-- The same with a second parameter, whose length is more than what is left of the chunk. -/
def overlongAsconf : Call :=
  { addingAsconf with
    packet :=
      [0xc1, 0, 0, 40, 0, 0, 0, 1, 0, 5, 0, 8, 10, 0, 0, 1,
        0xc0, 1, 0, 16, 0, 0, 0, 7, 0, 5, 0, 8, 10, 0, 0, 2, 0xc0, 2, 0, 16, 0, 0, 0, 8] }

def oneAddress : Assoc where
  asconfSeqIn := 0
  nets := [.v4 0x0a000001]
  lastControlChunkFrom := none
  asconfAckSent := []
  wildNet := false

end Sctp.Asconf
