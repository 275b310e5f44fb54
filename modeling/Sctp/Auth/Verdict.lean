import Sctp.Auth.HashKey
import Sctp.Auth.Mbufs

/-! Digests: `sctp_compute_hmac_m` and its cached key, `sctp_handle_auth`. -/
namespace Sctp.Auth

def hmacIdRsvd : BitVec 16 := 0x0000#16
def hmacIdSha1 : BitVec 16 := 0x0001#16
def hmacIdSha256 : BitVec 16 := 0x0003#16

/-- `sctp_get_hmac_digest_len`; `sha256` is the build option `SCTP_SUPPORT_HMAC_SHA256`. -/
def digestLen (sha256 : Bool) (id : BitVec 16) : ℕ :=
  if id = hmacIdSha1 then 20 else if sha256 ∧ id = hmacIdSha256 then 32 else 0

/-- `sctp_get_hmac_block_len` -/
def blockLen (sha256 : Bool) (id : BitVec 16) : ℕ :=
  if id = hmacIdSha1 then 64 else if sha256 ∧ id = hmacIdSha256 then 64 else 0

/-- The hash functions: the digest of all that was passed to the updates. -/
structure Hashes where
  sha256 : Bool
  hash : BitVec 16 → Bytes → Bytes
  length_hash : ∀ id text, digestLen sha256 id ≠ 0 → (hash id text).length = digestLen sha256 id

namespace Hashes

/-- A key with zeros behind it, combined with the byte of a pad. -/
def pad (key : Bytes) (blocklen : ℕ) (x : BitVec 8) : Bytes :=
  (key ++ List.replicate (blocklen - key.length) 0).map (· ^^^ x)

def blockKey (H : Hashes) (id : BitVec 16) (key : Bytes) : Bytes :=
  if blockLen H.sha256 id < key.length then H.hash id key else key

def hmac (H : Hashes) (id : BitVec 16) (key text : Bytes) : Bytes :=
  let key := H.blockKey id key
  let blocklen := blockLen H.sha256 id
  H.hash id (pad key blocklen 0x5c ++ H.hash id (pad key blocklen 0x36 ++ text))

end Hashes

/-- `sctp_hmac_m`; without a digest nothing was computed, and without a result a read went behind the
storage of an mbuf. -/
def hmacM (H : Hashes) (id : BitVec 16) (key : Bytes) (m : List (Mbuf (BitVec 8))) (offset : ℕ)
    (trailer : BitVec 32) : Option (Option Bytes) :=
  if key.length = 0 ∨ m.isEmpty ∨ digestLen H.sha256 id = 0 then some none
  else do
    let text ← textM trailer m offset
    return some (H.hmac id key text)

/-- A key that is kept for the next chunk. By which hash function it was shortened is no field of the
source. -/
structure CachedKey where
  bytes : Bytes
  shortened : Option (BitVec 16)
deriving DecidableEq, Repr

def CachedKey.shorten (H : Hashes) (id : BitVec 16) (k : CachedKey) : CachedKey :=
  if blockLen H.sha256 id < k.bytes.length then ⟨H.hash id k.bytes, some id⟩ else k

/-- `sctp_compute_hmac_m`: the key as it is afterwards, and the digest. -/
def computeHmacM (H : Hashes) (id : BitVec 16) (key : Option CachedKey)
    (m : List (Mbuf (BitVec 8))) (offset : ℕ) : Option (Option CachedKey × Option Bytes) :=
  match key with
  | none => some (none, none)
  | some k =>
    if m.isEmpty ∨ digestLen H.sha256 id = 0 then some (some k, none)
    else do
      let digest ← hmacM H id (k.shorten H id).bytes m offset 0#32
      return (some (k.shorten H id), digest)

/-- `sctp_sharedkey_t` -/
structure SharedKey where
  keyid : BitVec 16
  key : Option Key
  refcount : ℕ
  deactivated : Bool
deriving DecidableEq, Repr

structure AuthState where
  random : Option Key
  peerRandom : Option Key
  sharedKeys : List SharedKey
  localHmacs : List (BitVec 16)
  activeKeyid : BitVec 16
  assocKeyid : BitVec 16
  assocKey : Option CachedKey
  recvKeyid : BitVec 16
  recvKey : Option CachedKey
deriving DecidableEq, Repr

def findSharedkey (keys : List SharedKey) (keyid : BitVec 16) : Option SharedKey :=
  keys.find? fun k => k.keyid = keyid

/-- `sctp_auth_is_supported_hmac` -/
def isSupportedHmac (list : List (BitVec 16)) (id : BitVec 16) : Bool :=
  decide (id ≠ hmacIdRsvd) && list.contains id

/-- `sctp_auth_chunk`, and the bytes behind its header. -/
structure AuthChunk where
  chunkLength : BitVec 16
  sharedKeyId : BitVec 16
  hmacId : BitVec 16
  hmac : Bytes
deriving DecidableEq, Repr

/-- The memory a call finds: what a new key holds, and what is on the stack. -/
structure Memory where
  garbage : ℕ → BitVec 8
  stack : Bytes

/-- A key as `sctp_compute_hashkey` makes it. -/
def AuthState.derive (mem : Memory) (st : AuthState) (key : Option Key) : Option Bytes :=
  (computeHashkey true mem.garbage st.random st.peerRandom key).map Key.bytes

/-- The key for incoming chunks of a key id, from the cache or made anew. -/
def AuthState.useRecvKey (mem : Memory) (st : AuthState) (keyid : BitVec 16) : Option AuthState :=
  if st.recvKey.isNone ∨ st.recvKeyid ≠ keyid then
    (findSharedkey st.sharedKeys keyid).map fun skey =>
      { st with
        recvKey := (st.derive mem skey.key).map fun bytes => ⟨bytes, none⟩
        recvKeyid := keyid }
  else some st

/-- `sctp_handle_auth`; the verdict is whether it returns 0. -/
def handleAuth (H : Hashes) (mem : Memory) (st : AuthState) (auth : AuthChunk)
    (m : List (Mbuf (BitVec 8))) (offset : ℕ) : Option (AuthState × Bool) :=
  if auth.chunkLength.toNat < 8 then some (st, false)
  else if isSupportedHmac st.localHmacs auth.hmacId = false then some (st, false)
  else
    match st.useRecvKey mem auth.sharedKeyId with
    | none => some (st, false)
    | some st =>
      let digestlen := digestLen H.sha256 auth.hmacId
      if auth.chunkLength.toNat < 8 + digestlen then some (st, false)
      else do
        let m ← bzeroM 0 m ((offset + 8) % 2 ^ 32) (Bytes.size32 digestlen)
        let (key, computed) ← computeHmacM H auth.hmacId st.recvKey m offset
        return ({ st with recvKey := key },
          decide (auth.hmac.take digestlen = (computed.getD mem.stack).take digestlen))

theorem trailerFits_zero {α : Type} (m : List (Mbuf α)) (offset : ℕ) :
    TrailerFits 0#32 m offset := by
  have hloop : ∀ (m : List (Mbuf α)) (o : ℕ), TrailerFitsLoop 0#32 m o := by
    intro m
    induction m with
    | nil =>
      intro o
      exact trivial
    | cons m ms ih =>
      intro o
      cases ms with
      | nil => exact Or.inl rfl
      | cons m₂ ms => exact ih 0
  induction m generalizing offset with
  | nil => exact trivial
  | cons m ms ih =>
    unfold TrailerFits
    by_cases hskip : m.len ≤ offset
    · rw [if_pos hskip]
      exact ih _
    · rw [if_neg hskip]
      exact hloop _ _

/-- Without a trailer the text is the chain from the offset on. -/
theorem textM_zero {α : Type} (m : List (Mbuf α)) (offset : ℕ) :
    textM 0#32 m offset = some ((flat m).drop offset) := by
  have htext := (hmacExact_iff 0#32 m offset).mpr (trailerFits_zero m offset)
  rw [HmacExact, List.take_of_length_le] at htext
  · exact htext
  · rw [List.length_drop]
    exact Nat.le_refl _

/-- `sctp_compute_hmac_m` of a text. -/
def digestOf (H : Hashes) (id : BitVec 16) (key : Option CachedKey) (text : Bytes) :
    Option CachedKey × Option Bytes :=
  match key with
  | none => (none, none)
  | some k =>
    if digestLen H.sha256 id = 0 then (some k, none)
    else (some (k.shorten H id),
      if (k.shorten H id).bytes.length = 0 then none else some (H.hmac id (k.shorten H id).bytes text))

theorem computeHmacM_eq (H : Hashes) (id : BitVec 16) (key : Option CachedKey)
    {m : List (Mbuf (BitVec 8))} (hm : m ≠ []) (offset : ℕ) :
    computeHmacM H id key m offset = some (digestOf H id key ((flat m).drop offset)) := by
  have hempty : m.isEmpty = false := by
    cases m with
    | nil => exact absurd rfl hm
    | cons b ms => rfl
  cases key with
  | none => rfl
  | some k =>
    unfold computeHmacM digestOf hmacM
    dsimp only
    rw [hempty]
    simp only [Bool.false_eq_true, false_or]
    by_cases hid : digestLen H.sha256 id = 0
    · rw [if_pos hid, if_pos hid]
    · rw [if_neg hid, if_neg hid, textM_zero]
      by_cases hkey : (k.shorten H id).bytes.length = 0
      · rw [if_pos (Or.inl hkey), if_pos hkey]
        rfl
      · rw [if_neg (not_or.mpr ⟨hkey, hid⟩), if_neg hkey]
        rfl

/-- The text that is hashed for an incoming chunk: its digest counts as zero. -/
def authText (p : Bytes) (offset size : ℕ) : Bytes :=
  (paintList 0 (offset + 8) (offset + 8 + size) 0 p).drop offset

/-- `sctp_handle_auth` over the bytes of a packet. -/
def verifyAuth (H : Hashes) (mem : Memory) (st : AuthState) (auth : AuthChunk) (p : Bytes)
    (offset : ℕ) : AuthState × Bool :=
  if auth.chunkLength.toNat < 8 then (st, false)
  else if isSupportedHmac st.localHmacs auth.hmacId = false then (st, false)
  else
    match st.useRecvKey mem auth.sharedKeyId with
    | none => (st, false)
    | some st =>
      let digestlen := digestLen H.sha256 auth.hmacId
      if auth.chunkLength.toNat < 8 + digestlen then (st, false)
      else
        let d := digestOf H auth.hmacId st.recvKey (authText p offset (Bytes.size32 digestlen))
        ({ st with recvKey := d.1 },
          decide (auth.hmac.take digestlen = (d.2.getD mem.stack).take digestlen))

theorem paint_ne_nil {α : Type} (z : α) (lo hi p : ℕ) {m : List (Mbuf α)} (hm : m ≠ []) :
    paint z lo hi p m ≠ [] := by
  cases m with
  | nil => exact absurd rfl hm
  | cons b ms =>
    unfold paint
    exact List.cons_ne_nil _ _

/-- Where the digest does not begin inside an mbuf and end in another one, or is not looked at, only the
bytes of the packet count. -/
theorem handleAuth_of_within (H : Hashes) (mem : Memory) (st : AuthState) (auth : AuthChunk)
    {m : List (Mbuf (BitVec 8))} {offset : ℕ} (hin : offset + 8 ≤ (flat m).length)
    (hsmall : (flat m).length < 2 ^ 32)
    (hw : isSupportedHmac st.localHmacs auth.hmacId = true →
      (st.useRecvKey mem auth.sharedKeyId).isSome →
      8 + digestLen H.sha256 auth.hmacId ≤ auth.chunkLength.toNat →
      Within m (offset + 8) (Bytes.size32 (digestLen H.sha256 auth.hmacId))) :
    handleAuth H mem st auth m offset = some (verifyAuth H mem st auth (flat m) offset) := by
  have hm : m ≠ [] := by
    rintro rfl
    simp [flat] at hin
  have hoff : (offset + 8) % 2 ^ 32 = offset + 8 := Nat.mod_eq_of_lt (by omega)
  unfold handleAuth verifyAuth
  split_ifs with hhead hsupported
  · rfl
  · rfl
  · cases huse : st.useRecvKey mem auth.sharedKeyId with
    | none => rfl
    | some st' =>
      dsimp only
      split_ifs with hshort
      · rfl
      · have hat := hw (by simpa using hsupported) (by rw [huse]; rfl) (Nat.le_of_not_lt hshort)
        have hzero := bzeroM_of_within (0 : BitVec 8) m (p := 0) hat
        rw [Nat.zero_add] at hzero
        rw [hoff, hzero]
        simp only [Option.bind_eq_bind, Option.bind_some]
        rw [computeHmacM_eq H _ _ (paint_ne_nil _ _ _ _ hm), flat_paint]
        rfl

/-- The verdict is a matter of the bytes alone, and the helpers touch what they should, if and only if
the digest does not begin inside an mbuf and end in another one and the trailer lies in the last mbuf. -/
theorem handleAuth_cut_iff (H : Hashes) (mem : Memory) (st : AuthState) (auth : AuthChunk)
    (trailer : BitVec 32) {m₁ m₂ : List (Mbuf (BitVec 8))} {offset : ℕ} (hflat : flat m₁ = flat m₂)
    (hin : offset + 8 ≤ (flat m₁).length) (hsmall : (flat m₁).length < 2 ^ 32) :
    let size := Bytes.size32 (digestLen H.sha256 auth.hmacId)
    ((∃ verdict, (handleAuth H mem st auth m₁ offset).map Prod.snd = some verdict ∧
        (handleAuth H mem st auth m₂ offset).map Prod.snd = some verdict) ∧
      (BzeroExact m₁ (offset + 8) size ∧ BzeroExact m₂ (offset + 8) size) ∧
      HmacExact trailer m₁ offset ∧ HmacExact trailer m₂ offset) ↔
    (Within m₁ (offset + 8) size ∧ Within m₂ (offset + 8) size) ∧
      TrailerFits trailer m₁ offset ∧ TrailerFits trailer m₂ offset := by
  intro size
  rw [bzeroExact_iff, bzeroExact_iff, hmacExact_iff, hmacExact_iff]
  constructor
  · rintro ⟨_, h⟩
    exact h
  · intro h
    have h₁ := handleAuth_of_within H mem st auth hin hsmall fun _ _ _ => h.1.1
    have h₂ := handleAuth_of_within H mem st auth (hflat ▸ hin) (hflat ▸ hsmall)
      fun _ _ _ => h.1.2
    refine ⟨⟨(verifyAuth H mem st auth (flat m₁) offset).2, ?_, ?_⟩, h⟩
    · rw [h₁]
      rfl
    · rw [h₂, hflat]
      rfl

def sumHashes (sha256 : Bool) : Hashes where
  sha256 := sha256
  hash id text := List.replicate (digestLen sha256 id) (text.foldl (· + ·) 0 + id.setWidth 8)
  length_hash _ _ _ := List.length_replicate

def oneKey : AuthState where
  random := none
  peerRandom := none
  sharedKeys := [⟨0#16, some ⟨[1, 2, 3, 4], false⟩, 1, false⟩]
  localHmacs := [hmacIdSha1]
  activeKeyid := 0#16
  assocKeyid := 0#16
  assocKey := none
  recvKeyid := 0#16
  recvKey := none

def noMemory : Memory := ⟨fun _ => 0, []⟩

def sealedChunk (d : BitVec 8) : AuthChunk := ⟨28#16, 0#16, hmacIdSha1, List.replicate 20 d⟩

def sealedBytes (d : BitVec 8) : Bytes :=
  [0x0f, 0, 0, 28, 0, 0, 0, 1] ++ List.replicate 20 d

def sealedWhole (d : BitVec 8) : List (Mbuf (BitVec 8)) := [⟨sealedBytes d, [], by simp [sealedBytes]⟩]

/-- The chunk in two mbufs, cut in its digest. -/
def sealedCut (d : BitVec 8) : List (Mbuf (BitVec 8)) :=
  [⟨(sealedBytes d).take 18, List.replicate 16 0, by simp [sealedBytes]⟩,
    ⟨(sealedBytes d).drop 18, [], by simp [sealedBytes]⟩]

/-- The chunk in two mbufs, cut in front of its digest. -/
def sealedParted (d : BitVec 8) : List (Mbuf (BitVec 8)) :=
  [⟨(sealedBytes d).take 8, List.replicate 4 0, by simp [sealedBytes]⟩,
    ⟨(sealedBytes d).drop 8, [], by simp [sealedBytes]⟩]

/-- Cut inside its digest the chunk is refused: the last bytes of the digest are not cleared, and as many
behind the data of the first mbuf are. -/
theorem sealedCut_refused :
    flat (sealedWhole 15) = flat (sealedCut 15) ∧
      (handleAuth (sumHashes false) noMemory oneKey (sealedChunk 15) (sealedWhole 15) 0).map Prod.snd =
        some true ∧
      (handleAuth (sumHashes false) noMemory oneKey (sealedChunk 15) (sealedCut 15) 0).map Prod.snd =
        some false ∧
      ¬ BzeroExact (sealedCut 15) 8 20 := by
  have hcut : ¬ Within (sealedCut 15) 8 20 := by
    simp [Within, sealedCut, sealedBytes, Mbuf.len]
  refine ⟨by decide +kernel, by decide +kernel, by decide +kernel, ?_⟩
  rw [bzeroExact_iff]
  exact hcut

end Sctp.Auth
