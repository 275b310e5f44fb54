import Sctp.Lib.Bytes
import Sctp.Timeval

/-! When a state cookie is honoured: the checks of `sctp_handle_cookie_echo`. -/
namespace Sctp

/-- The fields of the state cookie that are looked at before it is honoured. -/
structure StateCookie where
  timeEntered : Timeval
  /-- In ticks. -/
  cookieLife : BitVec 32
  peersVtag : BitVec 32
  myVtag : BitVec 32
  addrType : BitVec 32
  peerport : BitVec 16
  myport : BitVec 16
deriving DecidableEq, Repr

structure SctpHdr where
  srcPort : BitVec 16
  destPort : BitVec 16
  vTag : BitVec 32
deriving DecidableEq, Repr

/-- A packet with a COOKIE-ECHO: the cookie as it is read from the chunk, `chunk_length`, the bytes
of the cookie in front of the signature, and the signature if the packet is long enough. -/
structure CookieEcho where
  sh : SctpHdr
  cookie : StateCookie
  chunkLength : ℕ
  signed : Bytes
  sig : Option Bytes
deriving Repr

/-- The secrets of the endpoint, in `struct sctp_pcb`. -/
structure CookiePcb where
  timeOfSecretChange : BitVec 32
  currentSecretNumber : Fin 2
  lastSecretNumber : Fin 2
  secretKey : Fin 2 → Bytes

/-- The clock, the allocators and what the functions called from here answer. -/
structure EchoEnv where
  hmac : Bytes → Bytes → Bytes
  hz : ℕ
  now : Timeval
  /-- `sizeof(struct sctp_state_cookie)` -/
  cookieSize : ℕ
  /-- `m_split` succeeds. -/
  splits : Bool
  /-- There is an mbuf for the error. -/
  operr : Bool
  /-- An association was found for the packet, by the caller or by the address in the cookie. -/
  existing : Bool
  /-- `sctp_process_cookie_new` or `sctp_process_cookie_existing` makes, completes or restarts an
  association, whatever it returns. -/
  processes : Bool
  /-- It returns the association. After a restart or a completion it may still return null. -/
  returned : Bool

inductive EchoOutcome where
  | discarded
  /-- A stale cookie, reported with its staleness in microseconds. -/
  | stale (timeUsec : BitVec 32)
  /-- The processing of the cookie left every association as it was. -/
  | unused (returned : Bool)
  /-- An association was made, completed or restarted. -/
  | honoured (existing returned : Bool)
deriving DecidableEq, Repr

def signatureSize : ℕ := 20

def wrongPortsOrTag (p : CookieEcho) : Bool :=
  p.cookie.peerport != p.sh.srcPort && p.cookie.myport != p.sh.destPort &&
    p.cookie.myVtag != p.sh.vTag

def tooSmall (env : EchoEnv) (p : CookieEcho) : Bool :=
  decide (p.chunkLength < 4 + env.cookieSize + 20 + 20 + signatureSize)

/-- `sctp_hmac_m` under one of the secrets. -/
def calcSig (env : EchoEnv) (ep : CookiePcb) (p : CookieEcho) (secret : Fin 2) : Bytes :=
  env.hmac (ep.secretKey secret) p.signed

def rotated (ep : CookiePcb) : Bool := ep.currentSecretNumber != ep.lastSecretNumber

def firstSecret (ep : CookiePcb) (p : CookieEcho) : Fin 2 :=
  if p.cookie.timeEntered.tv_sec < ep.timeOfSecretChange.toNat ∧ rotated ep then ep.lastSecretNumber
  else ep.currentSecretNumber

def cookieOk (env : EchoEnv) (ep : CookiePcb) (p : CookieEcho) (sig : Bytes) : Bool :=
  if calcSig env ep p (firstSecret ep p) = sig then true
  else
    decide (p.cookie.timeEntered.tv_sec = ep.timeOfSecretChange.toNat) && rotated ep &&
      decide (calcSig env ep p ep.lastSecretNumber = sig)

/-- `TICKS_TO_SEC`, in unsigned arithmetic. -/
def ticksToSec (hz : ℕ) (ticks : BitVec 32) : ℕ := (ticks.toNat + (hz - 1)) % 2 ^ 32 / hz

def timeExpires (env : EchoEnv) (c : StateCookie) : Timeval where
  tv_sec := c.timeEntered.tv_sec + ticksToSec env.hz c.cookieLife
  tv_usec := c.timeEntered.tv_usec

def staleness (env : EchoEnv) (c : StateCookie) : BitVec 32 :=
  let tim := BitVec.ofInt 32 ((env.now.tv_sec - (timeExpires env c).tv_sec) * 1000000)
  if tim = 0 then BitVec.ofInt 32 (env.now.tv_usec - c.timeEntered.tv_usec) else tim

/-- `SCTP_IPV6_ADDRESS`, `SCTP_IPV4_ADDRESS` or `SCTP_CONN_ADDRESS`. -/
def knownAddress (c : StateCookie) : Bool :=
  c.addrType == 0x0006 || c.addrType == 0x0005 || c.addrType == 0x0004

/-- What follows once the signature is right. -/
def honour (env : EchoEnv) (c : StateCookie) : EchoOutcome :=
  if (timeExpires env c).before env.now then
    if env.operr then .stale (staleness env c) else .discarded
  else if knownAddress c = false then .discarded
  else if env.processes then .honoured env.existing env.returned
  else .unused env.returned

def handleCookieEcho (env : EchoEnv) (ep : CookiePcb) (p : CookieEcho) : EchoOutcome :=
  if wrongPortsOrTag p then .discarded
  else if tooSmall env p then .discarded
  else if env.splits = false then .discarded
  else
    match p.sig with
    | none => .discarded
    | some sig => if cookieOk env ep p sig then honour env p.cookie else .discarded

/-- The secret was in force at that second: the current one from the change on, the last one up to
the second of the change, the only one if none was replaced yet. -/
def ValidAt (ep : CookiePcb) (sec : ℤ) (secret : Fin 2) : Prop :=
  secret = ep.currentSecretNumber ∧
      (ep.timeOfSecretChange.toNat ≤ sec ∨ ep.currentSecretNumber = ep.lastSecretNumber) ∨
    secret = ep.lastSecretNumber ∧ sec ≤ ep.timeOfSecretChange.toNat

/-- The signature is right under a secret valid when the cookie was made. -/
def Signed (env : EchoEnv) (ep : CookiePcb) (p : CookieEcho) : Prop :=
  ∃ sig secret, p.sig = some sig ∧ ValidAt ep p.cookie.timeEntered.tv_sec secret ∧
    calcSig env ep p secret = sig

/-- The cookie lives at least its ticks, rounded up to seconds. -/
def Unexpired (env : EchoEnv) (c : StateCookie) : Prop :=
  Timeval.before ⟨c.timeEntered.tv_sec + ((c.cookieLife.toNat + (env.hz - 1)) / env.hz : ℕ),
    c.timeEntered.tv_usec⟩ env.now = false

/-- Ports and tag of the packet are those in the cookie. -/
def SameIdentity (p : CookieEcho) : Prop :=
  p.cookie.peerport = p.sh.srcPort ∧ p.cookie.myport = p.sh.destPort ∧ p.cookie.myVtag = p.sh.vTag

/-- Neither of the ports nor the tag is that in the cookie. -/
def OtherIdentity (p : CookieEcho) : Prop :=
  p.cookie.peerport ≠ p.sh.srcPort ∧ p.cookie.myport ≠ p.sh.destPort ∧ p.cookie.myVtag ≠ p.sh.vTag

/-- A cookie that is honoured was made here, is alive and came in the packet it was made for. -/
def HonouredOnlyHere (env : EchoEnv) (ep : CookiePcb) (p : CookieEcho) : Prop :=
  ∀ existing returned, handleCookieEcho env ep p = .honoured existing returned →
    Signed env ep p ∧ Unexpired env p.cookie ∧ SameIdentity p

/-- Ports and tag apart, nothing stands against the cookie. -/
def OtherwiseGood (env : EchoEnv) (ep : CookiePcb) (p : CookieEcho) : Prop :=
  tooSmall env p = false ∧ env.splits = true ∧ (∃ sig, p.sig = some sig ∧ cookieOk env ep p sig) ∧
    (timeExpires env p.cookie).before env.now = false ∧ knownAddress p.cookie = true ∧
    env.processes = true

variable {env : EchoEnv} {ep : CookiePcb} {p : CookieEcho}

theorem validAt_firstSecret : ValidAt ep p.cookie.timeEntered.tv_sec (firstSecret ep p) := by
  unfold firstSecret ValidAt
  split_ifs with h
  · right
    exact ⟨rfl, h.1.le⟩
  · left
    refine ⟨rfl, ?_⟩
    by_cases hlt : p.cookie.timeEntered.tv_sec < ep.timeOfSecretChange.toNat
    · right
      by_contra hne
      exact h ⟨hlt, by simpa [rotated] using hne⟩
    · left
      omega

theorem signed_of_cookieOk {sig : Bytes} (hs : p.sig = some sig) (h : cookieOk env ep p sig) :
    Signed env ep p := by
  unfold cookieOk at h
  split_ifs at h with hfirst
  · exact ⟨sig, _, hs, validAt_firstSecret, hfirst⟩
  · simp only [Bool.and_eq_true, decide_eq_true_eq] at h
    refine ⟨sig, _, hs, ?_, h.2⟩
    right
    exact ⟨rfl, h.1.1.le⟩

/-- The code may let a cookie die early, where the sum of its ticks wraps, but never late. -/
theorem unexpired_of_not_after {c : StateCookie}
    (h : (timeExpires env c).before env.now = false) : Unexpired env c := by
  have hle : ticksToSec env.hz c.cookieLife ≤ (c.cookieLife.toNat + (env.hz - 1)) / env.hz := by
    unfold ticksToSec
    apply Nat.div_le_div_right
    exact Nat.mod_le _ _
  unfold Unexpired
  generalize (c.cookieLife.toNat + (env.hz - 1)) / env.hz = life at hle ⊢
  simp only [Timeval.before, decide_eq_false_iff_not] at h ⊢
  dsimp only [timeExpires] at h
  omega

theorem handleCookieEcho_honoured_iff {existing returned : Bool} :
    handleCookieEcho env ep p = .honoured existing returned ↔
      wrongPortsOrTag p = false ∧ OtherwiseGood env ep p ∧ env.existing = existing ∧
        env.returned = returned := by
  unfold handleCookieEcho OtherwiseGood
  cases hw : wrongPortsOrTag p with
  | true => simp
  | false =>
    cases hsmall : tooSmall env p with
    | true => simp
    | false =>
      cases hsplit : env.splits with
      | false => simp
      | true =>
        cases hsig : p.sig with
        | none => simp
        | some sig =>
          unfold honour
          cases hok : cookieOk env ep p sig with
          | false => simp [hok]
          | true =>
            cases hafter : (timeExpires env p.cookie).before env.now with
            | true => cases henv : env.operr <;> simp [hok]
            | false =>
              cases hknown : knownAddress p.cookie with
              | false => simp
              | true => cases hproc : env.processes <;> simp [hok]

theorem wrongPortsOrTag_eq_false_iff : wrongPortsOrTag p = false ↔ ¬ OtherIdentity p := by
  unfold wrongPortsOrTag OtherIdentity
  rw [← Bool.not_eq_true]
  simp [and_assoc]

/-- What is honoured comes from the identity in the cookie unless one or two of ports and tag are
right and nothing else stands against the cookie. -/
theorem honouredOnlyHere_iff (env : EchoEnv) (ep : CookiePcb) (p : CookieEcho) :
    HonouredOnlyHere env ep p ↔
      SameIdentity p ∨ OtherIdentity p ∨ ¬ OtherwiseGood env ep p := by
  constructor
  · intro h
    by_cases hother : OtherIdentity p
    · right
      left
      exact hother
    · by_cases hgood : OtherwiseGood env ep p
      · left
        have hhon : handleCookieEcho env ep p = .honoured env.existing env.returned :=
          handleCookieEcho_honoured_iff.mpr
            ⟨wrongPortsOrTag_eq_false_iff.mpr hother, hgood, rfl, rfl⟩
        exact (h env.existing env.returned hhon).2.2
      · right
        right
        exact hgood
  · intro h existing returned hhon
    obtain ⟨hports, hgood, _, _⟩ := handleCookieEcho_honoured_iff.mp hhon
    obtain ⟨_, _, ⟨sig, hsig, hok⟩, hafter, _, _⟩ := id hgood
    refine ⟨signed_of_cookieOk hsig hok, unexpired_of_not_after hafter, ?_⟩
    rcases h with hsame | hother | hnot
    · exact hsame
    · exact absurd hother (wrongPortsOrTag_eq_false_iff.mp hports)
    · exact absurd hgood hnot

/-- A cookie made at second 10, and a packet with it from another port with another tag. -/
def strayEcho : CookieEcho where
  sh := { srcPort := 7000, destPort := 80, vTag := 2 }
  cookie :=
    { timeEntered := ⟨10, 0⟩
      cookieLife := 60000
      peersVtag := 9
      myVtag := 1
      addrType := 0x0005
      peerport := 5000
      myport := 80 }
  chunkLength := 300
  signed := [1, 2, 3]
  sig := some [3]

def strayPcb : CookiePcb where
  timeOfSecretChange := 5
  currentSecretNumber := 0
  lastSecretNumber := 0
  secretKey := fun _ => [7]

def strayEnv : EchoEnv where
  hmac := fun _ text => [BitVec.ofNat 8 text.length]
  hz := 1000
  now := ⟨12, 0⟩
  cookieSize := 120
  splits := true
  operr := true
  existing := false
  processes := true
  returned := true

/-- One right port is enough. -/
theorem strayEcho_honoured :
    handleCookieEcho strayEnv strayPcb strayEcho = .honoured false true ∧
      ¬ HonouredOnlyHere strayEnv strayPcb strayEcho := by
  constructor
  · decide
  · intro h
    have hid := (h false true (by decide)).2.2
    exact absurd hid.1 (by decide)

end Sctp
