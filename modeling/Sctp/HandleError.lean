import Sctp.Lib.Bytes
import Sctp.Sender.State

/-! `sctp_handle_error`: the walk over the causes of an ERROR chunk. -/
namespace Sctp

def causeStaleCookie : ℕ := 0x0003
def causeUnrecogChunk : ℕ := 0x0006
def causeUnrecogParam : ℕ := 0x0008
def causeNatCollidingState : ℕ := 0x00b0
def causeNatMissingState : ℕ := 0x00b1

structure ErrorAsoc where
  state : BitVec 16
  staleCookieCount : ℕ
  maxInitTimes : ℕ
  prsctpSupported : Bool
  asconfSupported : Bool
  peerSupportsNat : Bool
  authSupported : Bool
  /-- Calls of `sctp_asconf_cleanup`. -/
  asconfCleanups : ℕ
deriving DecidableEq, Repr

inductive CauseEnd where
  /-- The INIT is sent again under a new tag, or an ASCONF tells the peer about the tags. -/
  | restarted
  /-- The association is gone. -/
  | aborted
deriving DecidableEq, Repr

namespace ErrorAsoc

def getState (s : ErrorAsoc) : BitVec 16 := s.state &&& stateMask

def backToInit (s : ErrorAsoc) : ErrorAsoc :=
  { s with state := (s.state &&& ~~~stateCookieEchoed) ||| stateCookieWait }

def natCollidingState (s : ErrorAsoc) : ErrorAsoc × Option CauseEnd :=
  if s.getState = stateCookieWait then (s, some .restarted)
  else if s.getState = stateCookieEchoed then (s.backToInit, some .restarted)
  else (s, none)

def natMissingState (s : ErrorAsoc) : ErrorAsoc × Option CauseEnd :=
  if s.authSupported then (s, some .restarted) else (s, none)

/-- A stale cookie. The staleness that the cause reports goes into the INIT that is sent and is not kept. -/
def staleCookie (s : ErrorAsoc) : ErrorAsoc × Option CauseEnd :=
  if s.getState = stateCookieEchoed then
    let s' : ErrorAsoc := { s with staleCookieCount := (s.staleCookieCount + 1) % 2 ^ 16 }
    if s.maxInitTimes < s'.staleCookieCount then (s', some .aborted) else (s'.backToInit, none)
  else (s, none)

/-- `sctp_process_unrecog_chunk` -/
def unrecogChunk (s : ErrorAsoc) (chunkType : BitVec 8) : ErrorAsoc :=
  if chunkType = 0x80 ∨ chunkType = 0xc1 then { s with asconfCleanups := s.asconfCleanups + 1 }
  else if chunkType = 0xc0 then { s with prsctpSupported := false }
  else s

/-- `sctp_process_unrecog_param` -/
def unrecogParam (s : ErrorAsoc) (paramType : ℕ) : ErrorAsoc :=
  if paramType = 0xc000 then { s with prsctpSupported := false }
  else if paramType = 0xc007 then { s with peerSupportsNat := false }
  else if paramType ∈ [0xc001, 0xc002, 0xc004, 0xc005, 0xc003] then
    { s with asconfSupported := false }
  else s

end ErrorAsoc

/-- The `switch` over the causes; the cause stands at an offset of the chunk. -/
def processCause (p : Bytes) (o code : ℕ) (s : ErrorAsoc) : ErrorAsoc × Option CauseEnd :=
  if code = causeNatCollidingState then s.natCollidingState
  else if code = causeNatMissingState then s.natMissingState
  else if code = causeStaleCookie then s.staleCookie
  else if code = causeUnrecogChunk then (s.unrecogChunk (p.getD (o + 4) 0), none)
  else if code = causeUnrecogParam then (s.unrecogParam (p.u16 (o + 4)), none)
  else (s, none)

/-- Bytes that are read of a cause, its header with them. -/
def causeNeed (s : ErrorAsoc) (code : ℕ) : ℕ :=
  if code = causeStaleCookie ∧ s.getState = stateCookieEchoed then 8
  else if code = causeUnrecogChunk then 5
  else if code = causeUnrecogParam then 6
  else 4

inductive ErrorResult where
  /-- `SCTP_NOTIFY_REMOTE_ERROR` with this code. -/
  | notified (code : ℕ)
  /-- A length is wrong, and nothing is reported. -/
  | bogus
  | left (e : CauseEnd)
  | running
deriving DecidableEq, Repr

/-- What a walk did: the causes it looked at, the bytes it read and how it ended. -/
structure ErrorWalk where
  examined : List ℕ
  reads : List ℕ
  result : ErrorResult
  asoc : ErrorAsoc

namespace ErrorWalk

def cons (o need : ℕ) (w : ErrorWalk) : ErrorWalk :=
  { w with examined := o :: w.examined, reads := List.range' o need ++ w.reads }

end ErrorWalk

/-- The loop. A negative remaining length is not less than the header once it is cast. -/
def walkErrors (p : Bytes) : ℕ → ℤ → ℕ → ℕ → ErrorAsoc → ErrorWalk
  | 0, _, _, _, s => ⟨[], [], .running, s⟩
  | n + 1, chklen, o, error, s =>
    if 0 ≤ chklen ∧ chklen < 4 then ⟨[], [], .notified error, s⟩
    else
      let code := p.u16 o
      let len := p.u16 (o + 2)
      if chklen < len ∨ len = 0 then ⟨[], List.range' o 4, .bogus, s⟩
      else
        let r := processCause p o code s
        match r.2 with
        | some e => ErrorWalk.cons o (causeNeed s code) ⟨[], [], .left e, r.1⟩
        | none =>
          ErrorWalk.cons o (causeNeed s code)
            (walkErrors p n (chklen - Bytes.size32 len) (o + Bytes.size32 len)
              (if error = 0 then code else error) r.1)

def handleError (p : Bytes) (s : ErrorAsoc) : ErrorWalk :=
  walkErrors p (p.u16 2 + 1) ((p.u16 2 : ℤ) - 4) 4 0 s

structure Cause where
  code : ℕ
  len : ℕ
deriving DecidableEq, Repr

/-- The causes stand in the chunk from an offset on, each padded to words. -/
def CausesAt (p : Bytes) : ℕ → List Cause → Prop
  | _, [] => True
  | o, c :: cs =>
    p.u16 o = c.code ∧ p.u16 (o + 2) = c.len ∧ 4 ≤ c.len ∧ CausesAt p (o + Bytes.size32 c.len) cs

/-- Length of the causes without the padding of the last. -/
def bodyLen : List Cause → ℕ
  | [] => 0
  | [c] => c.len
  | c :: d :: cs => Bytes.size32 c.len + bodyLen (d :: cs)

def walked (p : Bytes) : ℕ → ErrorAsoc → List Cause → List ℕ
  | _, _, [] => []
  | o, s, c :: cs =>
    match processCause p o c.code s with
    | (_, some _) => [o]
    | (s', none) => o :: walked p (o + Bytes.size32 c.len) s' cs

def walkEnd (p : Bytes) : ℕ → ErrorAsoc → List Cause → Option CauseEnd
  | _, _, [] => none
  | o, s, c :: cs =>
    match processCause p o c.code s with
    | (_, some e) => some e
    | (s', none) => walkEnd p (o + Bytes.size32 c.len) s' cs

/-- Each cause is looked at once and in order, nothing behind the chunk is read, and the first
cause is reported. -/
structure WalkedExactly (p : Bytes) (s : ErrorAsoc) (cs : List Cause) : Prop where
  examined : (handleError p s).examined = walked p 4 s cs
  inside : ∀ a ∈ (handleError p s).reads, a < p.u16 2
  result : (handleError p s).result =
    match walkEnd p 4 s cs with
    | some e => .left e
    | none => .notified ((cs.head?.map Cause.code).getD 0)

/-- If the last cause is reached it has the bytes that are read of it, and unless it ends the walk
its length is a number of words. -/
def LastComplete (p : Bytes) : ℕ → ErrorAsoc → List Cause → Prop
  | _, _, [] => True
  | o, s, [c] =>
    causeNeed s c.code ≤ c.len ∧ ((processCause p o c.code s).2 = none → 4 ∣ c.len)
  | o, s, c :: d :: cs =>
    (processCause p o c.code s).2 = none →
      LastComplete p (o + Bytes.size32 c.len) (processCause p o c.code s).1 (d :: cs)

/-- The code that is kept for the report: the first that is not zero. -/
def reported : ℕ → List Cause → ℕ
  | error, [] => error
  | error, c :: cs => reported (if error = 0 then c.code else error) cs

def lastLen : List Cause → ℕ
  | [] => 0
  | [c] => c.len
  | _ :: d :: cs => lastLen (d :: cs)

variable {p : Bytes} {s : ErrorAsoc}

theorem four_le_causeNeed (s : ErrorAsoc) (code : ℕ) : 4 ≤ causeNeed s code := by
  unfold causeNeed
  split_ifs <;> omega

theorem causeNeed_le (s : ErrorAsoc) (code : ℕ) : causeNeed s code ≤ 8 := by
  unfold causeNeed
  split_ifs <;> omega

theorem four_le_bodyLen {o : ℕ} {c : Cause} {cs : List Cause} (h : CausesAt p o (c :: cs)) :
    4 ≤ bodyLen (c :: cs) := by
  have h4 : 4 ≤ c.len := h.2.2.1
  have hs := Bytes.le_size32 c.len
  cases cs with
  | nil => exact h4
  | cons d ds =>
    unfold bodyLen
    omega

/-- The causes behind the first. -/
theorem bodyLen_cons_sub (c : Cause) (cs : List Cause) (h : cs ≠ []) :
    (bodyLen (c :: cs) : ℤ) - Bytes.size32 c.len = bodyLen cs := by
  cases cs with
  | nil => exact absurd rfl h
  | cons d ds =>
    have hb : bodyLen (c :: d :: ds) = Bytes.size32 c.len + bodyLen (d :: ds) := rfl
    omega

/-- One round of the loop at a cause. -/
theorem walkErrors_cons {n o error : ℕ} {chklen : ℤ} {c : Cause} {cs : List Cause}
    (hc : CausesAt p o (c :: cs)) (hlen : (c.len : ℤ) ≤ chklen) :
    walkErrors p (n + 1) chklen o error s =
      ErrorWalk.cons o (causeNeed s c.code)
        (match processCause p o c.code s with
        | (s', some e) => ⟨[], [], .left e, s'⟩
        | (s', none) =>
          walkErrors p n (chklen - Bytes.size32 c.len) (o + Bytes.size32 c.len)
            (if error = 0 then c.code else error) s') := by
  obtain ⟨hcode, hl, h4, _⟩ := hc
  rw [walkErrors, if_neg (by omega), hcode, hl, if_neg (by omega)]
  rcases hr : processCause p o c.code s with ⟨s', e⟩
  cases e with
  | some e => rfl
  | none => rfl

/-- Behind the last cause. -/
theorem walkErrors_end {n o error len : ℕ} :
    walkErrors p (n + 1) ((len : ℤ) - Bytes.size32 len) o error s =
      if 4 ∣ len then ⟨[], [], .notified error, s⟩ else ⟨[], List.range' o 4, .bogus, s⟩ := by
  have hs := Bytes.le_size32 len
  unfold walkErrors
  by_cases h4 : 4 ∣ len
  · have hz : Bytes.size32 len = len := by
      unfold Bytes.size32
      omega
    rw [if_pos h4, hz, if_pos (by omega)]
  · have hz : len < Bytes.size32 len := by
      unfold Bytes.size32 at hs ⊢
      omega
    rw [if_neg h4, if_neg (by omega)]
    dsimp only
    rw [if_pos (by omega)]

structure WalkSpec (p : Bytes) (o : ℕ) (s : ErrorAsoc) (error : ℕ) (cs : List Cause)
    (w : ErrorWalk) : Prop where
  examined : w.examined = walked p o s cs
  inside : (∀ a ∈ w.reads, a < o + bodyLen cs) ↔ LastComplete p o s cs
  result : w.result =
    match walkEnd p o s cs with
    | some e => .left e
    | none => if 4 ∣ lastLen cs then .notified (reported error cs) else .bogus

theorem walkSpec_single {n o error : ℕ} {c : Cause} (hc : CausesAt p o [c]) :
    WalkSpec p o s error [c] (walkErrors p (n + 2) c.len o error s) := by
  rw [walkErrors_cons hc le_rfl]
  rcases hr : processCause p o c.code s with ⟨s', e⟩
  have hneed : (∀ a ∈ List.range' o (causeNeed s c.code), a < o + c.len) ↔
      causeNeed s c.code ≤ c.len := by
    have h4 := four_le_causeNeed s c.code
    simp only [List.mem_range'_1]
    constructor
    · intro h
      have := h (o + (causeNeed s c.code - 1)) (by omega)
      omega
    · intro h a ha
      omega
  cases e with
  | some e =>
    constructor
    · simp [ErrorWalk.cons, walked, hr]
    · simp only [ErrorWalk.cons, List.append_nil, LastComplete, hr, reduceCtorEq,
        false_implies, and_true]
      exact hneed
    · simp [ErrorWalk.cons, walkEnd, hr]
  | none =>
    dsimp only
    rw [walkErrors_end]
    by_cases h4 : 4 ∣ c.len
    · rw [if_pos h4]
      constructor
      · simp [ErrorWalk.cons, walked, hr]
      · simp only [ErrorWalk.cons, List.append_nil, LastComplete, hr, h4, implies_true, and_true]
        exact hneed
      · simp [ErrorWalk.cons, walkEnd, hr, h4, lastLen, reported]
    · rw [if_neg h4]
      constructor
      · simp [ErrorWalk.cons, walked, hr]
      · have hs := Bytes.le_size32 c.len
        simp only [ErrorWalk.cons, LastComplete, hr, h4, imp_false, not_true_eq_false,
          and_false, iff_false, not_forall]
        refine ⟨o + Bytes.size32 c.len, ?_, ?_⟩
        · apply List.mem_append_right
          rw [List.mem_range'_1]
          omega
        · have hb : bodyLen [c] = c.len := rfl
          omega
      · simp [ErrorWalk.cons, walkEnd, hr, h4, lastLen]

/-- The walk over the causes, by induction on them: the last cause decides what is read and what is
reported. -/
theorem walkSpec_walkErrors (cs : List Cause) :
    ∀ (c : Cause) (o error n : ℕ) (s : ErrorAsoc), CausesAt p o (c :: cs) → cs.length + 1 < n →
      WalkSpec p o s error (c :: cs) (walkErrors p n (bodyLen (c :: cs)) o error s) := by
  induction cs with
  | nil =>
    intro c o error n s hc hn
    obtain ⟨n, rfl⟩ : ∃ m, n = m + 2 := ⟨n - 2, by simp only [List.length_nil] at hn; omega⟩
    exact walkSpec_single hc
  | cons d ds ih =>
    intro c o error n s hc hn
    simp only [List.length_cons] at hn
    obtain ⟨n, rfl⟩ : ∃ m, n = m + 1 := ⟨n - 1, by omega⟩
    have hbody : bodyLen (c :: d :: ds) = Bytes.size32 c.len + bodyLen (d :: ds) := rfl
    have hs := Bytes.le_size32 c.len
    have hd4 := four_le_bodyLen hc.2.2.2
    have hc4 : 4 ≤ Bytes.size32 c.len := hc.2.2.1.trans hs
    have hneed := causeNeed_le s c.code
    have hin : ∀ a ∈ List.range' o (causeNeed s c.code), a < o + bodyLen (c :: d :: ds) := by
      intro a ha
      rw [List.mem_range'_1] at ha
      omega
    rw [walkErrors_cons hc (by rw [hbody]; push_cast; omega),
      bodyLen_cons_sub c (d :: ds) (List.cons_ne_nil _ _)]
    rcases hr : processCause p o c.code s with ⟨s', e⟩
    cases e with
    | some e =>
      constructor
      · simp [ErrorWalk.cons, walked, hr]
      · simp only [ErrorWalk.cons, List.append_nil, LastComplete, hr, reduceCtorEq,
          false_implies, iff_true]
        exact hin
      · simp [ErrorWalk.cons, walkEnd, hr]
    | none =>
      have h := ih d (o + Bytes.size32 c.len) (if error = 0 then c.code else error) n s' hc.2.2.2
        (by omega)
      constructor
      · have hwalked : walked p o s (c :: d :: ds) =
            o :: walked p (o + Bytes.size32 c.len) s' (d :: ds) := by
          rw [walked, hr]
        rw [hwalked, ← h.examined]
        rfl
      · have hcomplete : LastComplete p o s (c :: d :: ds) ↔
            LastComplete p (o + Bytes.size32 c.len) s' (d :: ds) := by
          simp only [LastComplete, hr, true_implies]
        rw [hcomplete, ← h.inside]
        simp only [ErrorWalk.cons, List.mem_append]
        constructor
        · intro hall a ha
          have := hall a (Or.inr ha)
          omega
        · rintro hall a (ha | ha)
          · exact hin a ha
          · have := hall a ha
            omega
      · have hend : walkEnd p o s (c :: d :: ds) =
            walkEnd p (o + Bytes.size32 c.len) s' (d :: ds) := by
          rw [walkEnd, hr]
        rw [hend]
        exact h.result

theorem lastLen_of_lastComplete (cs : List Cause) :
    ∀ (c : Cause) (o : ℕ) (s : ErrorAsoc), LastComplete p o s (c :: cs) →
      walkEnd p o s (c :: cs) = none → 4 ∣ lastLen (c :: cs) := by
  induction cs with
  | nil =>
    intro c o s h hend
    apply h.2
    rw [walkEnd] at hend
    rcases hr : processCause p o c.code s with ⟨s', e⟩
    cases e with
    | some e => simp [hr] at hend
    | none => rfl
  | cons d ds ih =>
    intro c o s h hend
    rw [walkEnd] at hend
    rcases hr : processCause p o c.code s with ⟨s', e⟩
    cases e with
    | some e => simp [hr] at hend
    | none =>
      rw [hr] at hend
      have hnext := h (by rw [hr])
      rw [hr] at hnext
      exact ih d _ s' hnext hend

theorem length_le_bodyLen {cs : List Cause} :
    ∀ {o : ℕ}, CausesAt p o cs → cs.length ≤ bodyLen cs := by
  induction cs with
  | nil =>
    intro o _
    exact Nat.zero_le _
  | cons c cs ih =>
    intro o hc
    have h4 := hc.2.2.1
    have hs := Bytes.le_size32 c.len
    have hrest := ih hc.2.2.2
    cases cs with
    | nil =>
      show 1 ≤ c.len
      omega
    | cons d ds =>
      have hbody : bodyLen (c :: d :: ds) = Bytes.size32 c.len + bodyLen (d :: ds) := rfl
      rw [List.length_cons]
      omega

/-- An ERROR chunk is walked exactly just when its last cause, if it is reached, is complete and ends
on a word, and no cause of code zero in front takes the report from the first. -/
theorem walkedExactly_iff {cs : List Cause} (hc : CausesAt p 4 cs) (hl : p.u16 2 = 4 + bodyLen cs)
    (s : ErrorAsoc) :
    WalkedExactly p s cs ↔
      LastComplete p 4 s cs ∧
        (walkEnd p 4 s cs = none → reported 0 cs = (cs.head?.map Cause.code).getD 0) := by
  have hchk : ((p.u16 2 : ℕ) : ℤ) - 4 = bodyLen cs := by
    rw [hl]
    push_cast
    omega
  cases cs with
  | nil =>
    have hw : handleError p s = ⟨[], [], .notified 0, s⟩ := by
      unfold handleError
      rw [hchk, walkErrors, if_pos (by simp [bodyLen])]
    constructor
    · intro _
      exact ⟨trivial, fun _ => rfl⟩
    · intro _
      constructor
      · rw [hw]
        rfl
      · rw [hw]
        nofun
      · rw [hw]
        rfl
  | cons c cs =>
    have hlen := length_le_bodyLen hc
    rw [List.length_cons] at hlen
    have hw : WalkSpec p 4 s 0 (c :: cs) (handleError p s) := by
      unfold handleError
      rw [hchk]
      exact walkSpec_walkErrors cs c 4 0 _ s hc (by omega)
    constructor
    · intro h
      have hcomplete := hw.inside.mp (by rw [← hl]; exact h.inside)
      refine ⟨hcomplete, ?_⟩
      intro hend
      have hres := h.result
      rw [hw.result, hend] at hres
      dsimp only at hres
      rw [if_pos (lastLen_of_lastComplete cs c 4 s hcomplete hend)] at hres
      exact ErrorResult.notified.inj hres
    · rintro ⟨hcomplete, hfirst⟩
      refine ⟨hw.examined, ?_, ?_⟩
      · rw [hl]
        exact hw.inside.mpr hcomplete
      · rw [hw.result]
        cases hend : walkEnd p 4 s (c :: cs) with
        | some e => rfl
        | none =>
          dsimp only
          rw [if_pos (lastLen_of_lastComplete cs c 4 s hcomplete hend), hfirst hend]

def openAsoc : ErrorAsoc where
  state := 0x0008
  staleCookieCount := 0
  maxInitTimes := 8
  prsctpSupported := true
  asconfSupported := true
  peerSupportsNat := false
  authSupported := true
  asconfCleanups := 0

def fiveByteCause : Bytes := [9, 0, 0, 9, 0, 0x0d, 0, 5, 0x61, 0, 0, 0]

/-- Two causes of code 1 and 13, of four and eight bytes. -/
def twoCauses : Bytes := [9, 0, 0, 16, 0, 1, 0, 4, 0, 0x0d, 0, 8, 0, 0, 0, 0]

theorem walkedExactly_twoCauses :
    CausesAt twoCauses 4 [⟨1, 4⟩, ⟨13, 8⟩] ∧ WalkedExactly twoCauses openAsoc [⟨1, 4⟩, ⟨13, 8⟩] := by
  have hc : CausesAt twoCauses 4 [⟨1, 4⟩, ⟨13, 8⟩] :=
    ⟨by decide, by decide, by decide, by decide, by decide, by decide, trivial⟩
  refine ⟨hc, (walkedExactly_iff hc (by decide) openAsoc).mpr ⟨?_, ?_⟩⟩
  · intro _
    refine ⟨by decide, ?_⟩
    intro _
    decide
  · intro _
    rfl

theorem fiveByteCause_not_reported :
    CausesAt fiveByteCause 4 [⟨13, 5⟩] ∧ fiveByteCause.u16 2 = 4 + bodyLen [⟨13, 5⟩] ∧
      (handleError fiveByteCause openAsoc).result = .bogus ∧
      ¬ WalkedExactly fiveByteCause openAsoc [⟨13, 5⟩] := by
  have hres : (handleError fiveByteCause openAsoc).result = .bogus := by decide
  refine ⟨⟨by decide, by decide, by decide, trivial⟩, by decide, hres, ?_⟩
  intro h
  have hex := h.result
  rw [hres] at hex
  exact absurd hex (by decide)

end Sctp
