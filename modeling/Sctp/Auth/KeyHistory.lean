import Sctp.Auth.Verdict
import Sctp.Lib.Trace
import Sctp.Lib.UpdateFirst

/-! The life of an association's keys: outgoing and incoming AUTH chunks between changes of the shared keys. -/
namespace Sctp.Auth

/-- `sctp_auth_add_hmacid` -/
def addHmacid (sha256 : Bool) (maxAlgo : ℕ) (list : List (BitVec 16)) (id : BitVec 16) :
    List (BitVec 16) :=
  if list.length = maxAlgo then list
  else if id ≠ hmacIdSha1 ∧ ¬ (sha256 ∧ id = hmacIdSha256) then list
  else if list.contains id then list
  else list ++ [id]

/-- A list as it is built, one id after the other. -/
def hmaclist (sha256 : Bool) (maxAlgo : ℕ) (ids : List (BitVec 16)) : List (BitVec 16) :=
  ids.foldl (addHmacid sha256 maxAlgo) []

/-- `sctp_insert_sharedkey`; a deactivated key in use is not replaced. -/
def insertSharedkey : List SharedKey → SharedKey → List SharedKey
  | [], new => [new]
  | skey :: keys, new =>
    if new.keyid < skey.keyid then new :: skey :: keys
    else if new.keyid = skey.keyid then
      if skey.deactivated ∧ 1 < skey.refcount then skey :: keys else new :: keys
    else skey :: insertSharedkey keys new

namespace AuthState

def clearCachedkeys (st : AuthState) (keyid : BitVec 16) : AuthState :=
  { st with
    assocKey := if keyid = st.assocKeyid then none else st.assocKey
    recvKey := if keyid = st.recvKeyid then none else st.recvKey }

/-- The socket option `SCTP_AUTH_KEY`, for the association. -/
def setKey (st : AuthState) (keyid : BitVec 16) (key : Option Key) : AuthState :=
  { st.clearCachedkeys keyid with
    sharedKeys := insertSharedkey st.sharedKeys ⟨keyid, key, 1, false⟩ }

def deleteSharedkey (st : AuthState) (keyid : BitVec 16) : AuthState :=
  if keyid = st.activeKeyid then st
  else
    match findSharedkey st.sharedKeys keyid with
    | none => st
    | some skey =>
      if 1 < skey.refcount then st
      else
        { st with sharedKeys := st.sharedKeys.eraseP fun k => k.keyid = keyid }.clearCachedkeys keyid

def mark (st : AuthState) (keyid : BitVec 16) (deactivated : Bool) : List SharedKey :=
  (First.updateFirst (fun k => k.keyid = keyid) (fun k => { k with deactivated := deactivated })
    st.sharedKeys).getD st.sharedKeys

/-- `sctp_auth_setactivekey` -/
def setactivekey (st : AuthState) (keyid : BitVec 16) : AuthState :=
  match findSharedkey st.sharedKeys keyid with
  | none => st
  | some skey =>
    if skey.deactivated ∧ 1 < skey.refcount then st
    else { st with activeKeyid := keyid, sharedKeys := st.mark keyid false }

def deactSharedkey (st : AuthState) (keyid : BitVec 16) : AuthState :=
  if keyid = st.activeKeyid then st
  else
    match findSharedkey st.sharedKeys keyid with
    | none => st
    | some _ => { st with sharedKeys := st.mark keyid true }

end AuthState

/-- `bcopy` to the `o`-th byte of an mbuf's data on. -/
def Mbuf.write (m : Mbuf (BitVec 8)) (o : ℕ) (bytes : Bytes) : Option (Mbuf (BitVec 8)) :=
  if o + bytes.length ≤ m.storage.length then
    some (m.mapIdx fun k c => if o ≤ k then bytes.getD (k - o) c else c)
  else none

/-- The same in the `i`-th mbuf of a chain. -/
def writeAt : List (Mbuf (BitVec 8)) → ℕ → ℕ → Bytes → Option (List (Mbuf (BitVec 8)))
  | [], _, _, _ => none
  | m :: ms, 0, o, bytes => (m.write o bytes).map (· :: ms)
  | m :: ms, i + 1, o, bytes => (writeAt ms i o bytes).map (m :: ·)

/-- A packet with an AUTH chunk in it: the mbuf and the byte in it that the chunk begins at, and the offset
of the chunk in the packet. The chunk has room for its digest. -/
structure OutPacket (sha256 : Bool) where
  hmacId : BitVec 16
  m : List (Mbuf (BitVec 8))
  mbuf : ℕ
  start : ℕ
  authOffset : ℕ
  fits : ∃ b, m[mbuf]? = some b ∧
    start + (8 + Bytes.size32 (digestLen sha256 hmacId)) ≤ b.storage.length

/-- The key for outgoing chunks with a key id, from the cache or made anew. -/
def AuthState.useAssocKey (mem : Memory) (st : AuthState) (keyid : BitVec 16) : AuthState :=
  if keyid ≠ st.assocKeyid ∨ st.assocKey.isNone then
    { st with
      assocKey := (st.derive mem ((findSharedkey st.sharedKeys keyid).bind SharedKey.key)).map
        fun bytes => ⟨bytes, none⟩
      assocKeyid := keyid }
  else st

/-- The chunk before its digest is computed: the digest zeroed and the key id set. -/
def OutPacket.prepare {sha256 : Bool} (p : OutPacket sha256) (keyid : BitVec 16) :
    Option (List (Mbuf (BitVec 8))) := do
  let m ← writeAt p.m p.mbuf (p.start + 8)
    (List.replicate (Bytes.size32 (digestLen sha256 p.hmacId)) 0)
  writeAt m p.mbuf (p.start + 4) (Bytes.enc16 keyid.toNat)

def OutPacket.fill {sha256 : Bool} (p : OutPacket sha256) (m : List (Mbuf (BitVec 8)))
    (digest : Option Bytes) : Option (List (Mbuf (BitVec 8))) :=
  match digest with
  | none => some m
  | some d => writeAt m p.mbuf (p.start + 8) d

/-- `sctp_fill_hmac_digest_m`; `hmacId` of the packet is `peer_hmac_id`. -/
def fillHmacDigestM (H : Hashes) (mem : Memory) (st : AuthState) (p : OutPacket H.sha256)
    (keyid : BitVec 16) : Option (AuthState × Option Bytes × List (Mbuf (BitVec 8))) := do
  let m ← p.prepare keyid
  let st := st.useAssocKey mem keyid
  let (key, digest) ← computeHmacM H p.hmacId st.assocKey m p.authOffset
  let m ← p.fill m digest
  return ({ st with assocKey := key }, digest, m)

structure InPacket where
  m : List (Mbuf (BitVec 8))
  offset : ℕ
  inside : offset + 8 ≤ (flat m).length
  small : (flat m).length < 2 ^ 32

inductive KeyEvent (sha256 : Bool) where
  | setKey (keyid : BitVec 16) (key : Option Key)
  | delete (keyid : BitVec 16)
  | activate (keyid : BitVec 16)
  | deactivate (keyid : BitVec 16)
  | send (p : OutPacket sha256) (keyid : BitVec 16)
  | receive (auth : AuthChunk) (p : InPacket) (stack : Bytes)

/-- `garbage` is what the memory of a new key holds. -/
def stepKeys (H : Hashes) (garbage : ℕ → BitVec 8) (st : AuthState) :
    KeyEvent H.sha256 → Option AuthState
  | .setKey keyid key => some (st.setKey keyid key)
  | .delete keyid => some (st.deleteSharedkey keyid)
  | .activate keyid => some (st.setactivekey keyid)
  | .deactivate keyid => some (st.deactSharedkey keyid)
  | .send p keyid => (fillHmacDigestM H ⟨garbage, []⟩ st p keyid).map Prod.fst
  | .receive auth p stack => (handleAuth H ⟨garbage, stack⟩ st auth p.m p.offset).map Prod.fst

def AuthState.freshKey (garbage : ℕ → BitVec 8) (st : AuthState) (keyid : BitVec 16) : Option Bytes :=
  st.derive ⟨garbage, []⟩ ((findSharedkey st.sharedKeys keyid).bind SharedKey.key)

/-- The digest that is sent is the HMAC of the chunk and what follows it, under the key derived anew. -/
def SendExact (H : Hashes) (garbage : ℕ → BitVec 8) (st : AuthState) (p : OutPacket H.sha256)
    (keyid : BitVec 16) : Prop :=
  ∃ m r, p.prepare keyid = some m ∧ fillHmacDigestM H ⟨garbage, []⟩ st p keyid = some r ∧
    (digestLen H.sha256 p.hmacId ≠ 0 →
      r.2.1 = some (H.hmac p.hmacId ((st.freshKey garbage keyid).getD []) ((flat m).drop p.authOffset)))

/-- A chunk is to be accepted: its HMAC id was negotiated, there is a key with its key id, and its digest is
the HMAC of the packet under the key derived anew. -/
def Acceptable (H : Hashes) (garbage : ℕ → BitVec 8) (st : AuthState) (auth : AuthChunk)
    (p : InPacket) : Prop :=
  let digestlen := digestLen H.sha256 auth.hmacId
  isSupportedHmac st.localHmacs auth.hmacId = true ∧
    (findSharedkey st.sharedKeys auth.sharedKeyId).isSome ∧
    8 + digestlen ≤ auth.chunkLength.toNat ∧
    auth.hmac.take digestlen = H.hmac auth.hmacId ((st.freshKey garbage auth.sharedKeyId).getD [])
      (authText (flat p.m) p.offset (Bytes.size32 digestlen))

def ReceiveExact (H : Hashes) (garbage : ℕ → BitVec 8) (st : AuthState) (auth : AuthChunk)
    (p : InPacket) (stack : Bytes) : Prop :=
  ∃ r, handleAuth H ⟨garbage, stack⟩ st auth p.m p.offset = some r ∧
    (r.2 = true ↔ Acceptable H garbage st auth p)

/-- No step depends on the steps before it. -/
def NoHistory (H : Hashes) (garbage : ℕ → BitVec 8) (st : AuthState) : KeyEvent H.sha256 → Prop
  | .send p keyid => SendExact H garbage st p keyid
  | .receive auth p stack => ReceiveExact H garbage st auth p stack
  | _ => True

/-- There is a key, and if the cached one was shortened, then by this hash function. -/
def SafeKey (garbage : ℕ → BitVec 8) (st : AuthState) (cachedId : BitVec 16)
    (cached : Option CachedKey) (keyid hmacId : BitVec 16) : Prop :=
  (st.freshKey garbage keyid).isSome ∧
    (keyid = cachedId → ∀ k ∈ cached, k.shortened = none ∨ k.shortened = some hmacId)

/-- The condition on a step: the key of a computation, and for an incoming chunk that is looked at the
place of its digest in the chain. -/
def Safe (H : Hashes) (garbage : ℕ → BitVec 8) (st : AuthState) : KeyEvent H.sha256 → Prop
  | .send p keyid =>
    digestLen H.sha256 p.hmacId ≠ 0 → SafeKey garbage st st.assocKeyid st.assocKey keyid p.hmacId
  | .receive auth p _ =>
    isSupportedHmac st.localHmacs auth.hmacId = true →
      (findSharedkey st.sharedKeys auth.sharedKeyId).isSome →
      8 + digestLen H.sha256 auth.hmacId ≤ auth.chunkLength.toNat →
      SafeKey garbage st st.recvKeyid st.recvKey auth.sharedKeyId auth.hmacId ∧
        Within p.m (p.offset + 8) (Bytes.size32 (digestLen H.sha256 auth.hmacId))
  | _ => True

/-- A cached key is the derived key, or what one of the hash functions made of it. -/
def Derived (H : Hashes) (key : Bytes) (k : CachedKey) : Prop :=
  (k.shortened = none ∧ k.bytes = key) ∨
    ∃ id, k.shortened = some id ∧ digestLen H.sha256 id ≠ 0 ∧ blockLen H.sha256 id < key.length ∧
      k.bytes = H.hash id key

theorem digestLen_le_blockLen (sha256 : Bool) (id : BitVec 16) :
    digestLen sha256 id ≤ blockLen sha256 id := by
  unfold digestLen blockLen
  split_ifs <;> omega

theorem blockLen_eq {sha256 : Bool} {id : BitVec 16} (h : digestLen sha256 id ≠ 0) :
    blockLen sha256 id = 64 := by
  unfold digestLen at h
  unfold blockLen
  split_ifs at h ⊢
  · rfl
  · rfl
  · exact absurd rfl h

theorem digestLen_le (sha256 : Bool) (id : BitVec 16) : digestLen sha256 id ≤ 32 := by
  unfold digestLen
  split_ifs <;> omega

variable {H : Hashes}

theorem Derived.shorten {key : Bytes} {k : CachedKey} (h : Derived H key k) {id : BitVec 16}
    (hid : digestLen H.sha256 id ≠ 0) : Derived H key (k.shorten H id) := by
  unfold CachedKey.shorten
  by_cases hlong : blockLen H.sha256 id < k.bytes.length
  · rw [if_pos hlong]
    rcases h with ⟨_, rfl⟩ | ⟨id', _, hid', _, hbytes⟩
    · exact Or.inr ⟨id, rfl, hid, hlong, rfl⟩
    · rw [hbytes, H.length_hash id' key hid', blockLen_eq hid] at hlong
      have := digestLen_le H.sha256 id'
      omega
  · rw [if_neg hlong]
    exact h

/-- The digest under a cached key is that under the derived key, if no other hash function shortened it. -/
theorem digestOf_derived {key : Bytes} {k : CachedKey} (h : Derived H key k) {id : BitVec 16}
    (hid : digestLen H.sha256 id ≠ 0) (hkey : key.length ≠ 0)
    (hsame : k.shortened = none ∨ k.shortened = some id) (text : Bytes) :
    (digestOf H id (some k) text).2 = some (H.hmac id key text) := by
  have hblock : (k.shorten H id).bytes = H.blockKey id key := by
    unfold CachedKey.shorten Hashes.blockKey
    rcases h with ⟨_, rfl⟩ | ⟨id', hshort, hid', hlong, hbytes⟩
    · split_ifs <;> rfl
    · obtain rfl : id' = id := by
        rw [hshort] at hsame
        simpa using hsame
      have hle : ¬ blockLen H.sha256 id' < k.bytes.length := by
        have := digestLen_le_blockLen H.sha256 id'
        rw [hbytes, H.length_hash id' key hid']
        omega
      rw [if_neg hle, if_pos hlong, hbytes]
  have hagain : H.blockKey id (H.blockKey id key) = H.blockKey id key := by
    have := digestLen_le_blockLen H.sha256 id
    unfold Hashes.blockKey
    split_ifs with hlong hagain
    · rw [H.length_hash id key hid] at hagain
      omega
    · rfl
    · rfl
  have hnonempty : (H.blockKey id key).length ≠ 0 := by
    unfold Hashes.blockKey
    split_ifs
    · rw [H.length_hash id key hid]
      exact hid
    · exact hkey
  unfold digestOf
  dsimp only
  rw [if_neg hid, hblock, if_neg hnonempty]
  unfold Hashes.hmac
  rw [hagain]

theorem digestOf_key {id : BitVec 16} {key : Option CachedKey} {text : Bytes} {k' : CachedKey}
    (h : k' ∈ (digestOf H id key text).1) :
    ∃ k ∈ key, k' = k ∨ (digestLen H.sha256 id ≠ 0 ∧ k' = k.shorten H id) := by
  unfold digestOf at h
  cases key with
  | none => cases h
  | some k =>
    dsimp only at h
    by_cases hid : digestLen H.sha256 id = 0
    · rw [if_pos hid] at h
      exact ⟨k, rfl, Or.inl (Option.some.inj h).symm⟩
    · rw [if_neg hid] at h
      exact ⟨k, rfl, Or.inr ⟨hid, (Option.some.inj h).symm⟩⟩

def keyOf (keys : List SharedKey) (keyid : BitVec 16) : Option (Option Key) :=
  (findSharedkey keys keyid).map SharedKey.key

theorem keyOf_cons (skey : SharedKey) (keys : List SharedKey) (keyid : BitVec 16) :
    keyOf (skey :: keys) keyid = if skey.keyid = keyid then some skey.key else keyOf keys keyid := by
  unfold keyOf findSharedkey
  rw [List.find?_cons]
  by_cases h : skey.keyid = keyid <;> simp [h]

theorem keyOf_insertSharedkey (keys : List SharedKey) (new : SharedKey) {keyid : BitVec 16}
    (h : new.keyid ≠ keyid) : keyOf (insertSharedkey keys new) keyid = keyOf keys keyid := by
  induction keys with
  | nil => rw [insertSharedkey, keyOf_cons, if_neg h]
  | cons skey keys ih =>
    unfold insertSharedkey
    split_ifs with hlt heq hbusy
    · rw [keyOf_cons new, if_neg h]
    · rfl
    · rw [keyOf_cons, keyOf_cons, if_neg h, if_neg (heq ▸ h)]
    · rw [keyOf_cons, keyOf_cons, ih]

theorem keyOf_eraseP (keys : List SharedKey) {keyid other : BitVec 16} (h : other ≠ keyid) :
    keyOf (keys.eraseP fun k => k.keyid = other) keyid = keyOf keys keyid := by
  induction keys with
  | nil => rfl
  | cons skey keys ih =>
    rw [List.eraseP_cons]
    by_cases hother : skey.keyid = other
    · rw [decide_eq_true hother, cond_true, keyOf_cons, hother, if_neg h]
    · rw [decide_eq_false hother, cond_false, keyOf_cons, keyOf_cons, ih]

/-- Only ids and keys count. -/
theorem keyOf_congr {keys keys' : List SharedKey}
    (h : keys'.map (fun k => (k.keyid, k.key)) = keys.map fun k => (k.keyid, k.key))
    (keyid : BitVec 16) : keyOf keys' keyid = keyOf keys keyid := by
  have hmap : ∀ l : List SharedKey, keyOf l keyid =
      ((l.map fun k => (k.keyid, k.key)).find? fun p => p.1 = keyid).map Prod.snd := by
    intro l
    rw [List.find?_map, Option.map_map]
    rfl
  rw [hmap, hmap, h]

theorem keyOf_mark (st : AuthState) (other : BitVec 16) (deactivated : Bool) (keyid : BitVec 16) :
    keyOf (st.mark other deactivated) keyid = keyOf st.sharedKeys keyid := by
  apply keyOf_congr
  unfold AuthState.mark
  cases hupdate : First.updateFirst (fun k => decide (k.keyid = other))
      (fun k : SharedKey => { k with deactivated := deactivated }) st.sharedKeys with
  | none => rfl
  | some keys =>
    rw [Option.getD_some]
    apply First.map_of_updateFirst _ hupdate
    intro k
    rfl

theorem freshKey_congr {garbage : ℕ → BitVec 8} {st st' : AuthState} {keyid : BitVec 16}
    (hkey : keyOf st'.sharedKeys keyid = keyOf st.sharedKeys keyid) (hrandom : st'.random = st.random)
    (hpeer : st'.peerRandom = st.peerRandom) :
    st'.freshKey garbage keyid = st.freshKey garbage keyid := by
  have hjoin : ∀ s : AuthState,
      (findSharedkey s.sharedKeys keyid).bind SharedKey.key = (keyOf s.sharedKeys keyid).join := by
    intro s
    unfold keyOf
    cases findSharedkey s.sharedKeys keyid <;> rfl
  unfold AuthState.freshKey AuthState.derive
  rw [hjoin, hjoin, hkey, hrandom, hpeer]

def CachedFor (H : Hashes) (garbage : ℕ → BitVec 8) (st : AuthState) (keyid : BitVec 16)
    (cached : Option CachedKey) : Prop :=
  ∀ k ∈ cached, ∃ key, st.freshKey garbage keyid = some key ∧ Derived H key k

structure Coherent (H : Hashes) (garbage : ℕ → BitVec 8) (st : AuthState) : Prop where
  assoc : CachedFor H garbage st st.assocKeyid st.assocKey
  recv : CachedFor H garbage st st.recvKeyid st.recvKey
  recvFound : st.recvKey.isSome → (keyOf st.sharedKeys st.recvKeyid).isSome
  hmacs : ∀ id ∈ st.localHmacs, digestLen H.sha256 id ≠ 0

variable {garbage : ℕ → BitVec 8} {st : AuthState}

theorem CachedFor.none (keyid : BitVec 16) : CachedFor H garbage st keyid none := by
  intro k hk
  cases hk

theorem CachedFor.congr {st' : AuthState} {keyid : BitVec 16} {cached : Option CachedKey}
    (h : CachedFor H garbage st keyid cached)
    (hfresh : st'.freshKey garbage keyid = st.freshKey garbage keyid) :
    CachedFor H garbage st' keyid cached := by
  intro k hk
  rw [hfresh]
  exact h k hk

/-- A change of the key with one id, whose cached keys are dropped. -/
theorem Coherent.change (h : Coherent H garbage st) {keyid : BitVec 16} {keys : List SharedKey}
    (hkeys : ∀ j, keyid ≠ j → keyOf keys j = keyOf st.sharedKeys j) :
    Coherent H garbage { st.clearCachedkeys keyid with sharedKeys := keys } := by
  have hfresh : ∀ j, keyid ≠ j →
      ({ st.clearCachedkeys keyid with sharedKeys := keys }).freshKey garbage j =
        st.freshKey garbage j := by
    intro j hj
    exact freshKey_congr (hkeys j hj) rfl rfl
  constructor
  · change CachedFor H garbage _ st.assocKeyid (if keyid = st.assocKeyid then none else st.assocKey)
    by_cases hid : keyid = st.assocKeyid
    · rw [if_pos hid]
      exact CachedFor.none _
    · rw [if_neg hid]
      exact h.assoc.congr (hfresh _ hid)
  · change CachedFor H garbage _ st.recvKeyid (if keyid = st.recvKeyid then none else st.recvKey)
    by_cases hid : keyid = st.recvKeyid
    · rw [if_pos hid]
      exact CachedFor.none _
    · rw [if_neg hid]
      exact h.recv.congr (hfresh _ hid)
  · change (if keyid = st.recvKeyid then none else st.recvKey).isSome →
      (keyOf keys st.recvKeyid).isSome
    by_cases hid : keyid = st.recvKeyid
    · rw [if_pos hid]
      intro hsome
      cases hsome
    · rw [if_neg hid, hkeys _ hid]
      exact h.recvFound
  · exact h.hmacs

/-- A change that leaves every key as it is. -/
theorem Coherent.same (h : Coherent H garbage st) {keys : List SharedKey} {active : BitVec 16}
    (hkeys : ∀ j, keyOf keys j = keyOf st.sharedKeys j) :
    Coherent H garbage { st with sharedKeys := keys, activeKeyid := active } := by
  constructor
  · exact h.assoc.congr (freshKey_congr (hkeys _) rfl rfl)
  · exact h.recv.congr (freshKey_congr (hkeys _) rfl rfl)
  · intro hsome
    exact (congrArg Option.isSome (hkeys _)).trans (h.recvFound hsome)
  · exact h.hmacs

theorem Coherent.setKey (h : Coherent H garbage st) (keyid : BitVec 16) (key : Option Key) :
    Coherent H garbage (st.setKey keyid key) := by
  apply h.change
  intro j hj
  exact keyOf_insertSharedkey _ _ hj

theorem Coherent.deleteSharedkey (h : Coherent H garbage st) (keyid : BitVec 16) :
    Coherent H garbage (st.deleteSharedkey keyid) := by
  unfold AuthState.deleteSharedkey
  by_cases hactive : keyid = st.activeKeyid
  · rw [if_pos hactive]
    exact h
  · rw [if_neg hactive]
    cases findSharedkey st.sharedKeys keyid with
    | none => exact h
    | some skey =>
      dsimp only
      by_cases hused : 1 < skey.refcount
      · rw [if_pos hused]
        exact h
      · rw [if_neg hused]
        apply h.change
        intro j hj
        exact keyOf_eraseP _ hj

theorem Coherent.setactivekey (h : Coherent H garbage st) (keyid : BitVec 16) :
    Coherent H garbage (st.setactivekey keyid) := by
  unfold AuthState.setactivekey
  cases findSharedkey st.sharedKeys keyid with
  | none => exact h
  | some skey =>
    dsimp only
    split
    · exact h
    · exact h.same (keyOf_mark st keyid false)

theorem Coherent.deactSharedkey (h : Coherent H garbage st) (keyid : BitVec 16) :
    Coherent H garbage (st.deactSharedkey keyid) := by
  unfold AuthState.deactSharedkey
  split
  · exact h
  · cases findSharedkey st.sharedKeys keyid with
    | none => exact h
    | some skey => exact h.same (keyOf_mark st keyid true)

theorem Coherent.setAssoc (h : Coherent H garbage st) {keyid : BitVec 16} {cached : Option CachedKey}
    (hcached : CachedFor H garbage st keyid cached) :
    Coherent H garbage { st with assocKey := cached, assocKeyid := keyid } := by
  constructor
  · exact hcached.congr rfl
  · exact h.recv.congr rfl
  · exact h.recvFound
  · exact h.hmacs

theorem Coherent.setRecv (h : Coherent H garbage st) {keyid : BitVec 16} {cached : Option CachedKey}
    (hcached : CachedFor H garbage st keyid cached) (hfound : (keyOf st.sharedKeys keyid).isSome) :
    Coherent H garbage { st with recvKey := cached, recvKeyid := keyid } := by
  constructor
  · exact h.assoc.congr rfl
  · exact hcached.congr rfl
  · intro _
    exact hfound
  · exact h.hmacs

/-- A computation leaves a key that comes from the same one. -/
theorem CachedFor.digestOf {keyid : BitVec 16} {cached : Option CachedKey}
    (h : CachedFor H garbage st keyid cached) (id : BitVec 16) (text : Bytes) :
    CachedFor H garbage st keyid (digestOf H id cached text).1 := by
  intro k' hk'
  obtain ⟨k, hk, hcase⟩ := digestOf_key hk'
  obtain ⟨key, hfresh, hderived⟩ := h k hk
  rcases hcase with rfl | ⟨hid, rfl⟩
  · exact ⟨key, hfresh, hderived⟩
  · exact ⟨key, hfresh, hderived.shorten hid⟩

/-- A key that was just made. -/
theorem cachedFor_fresh (keyid : BitVec 16) :
    CachedFor H garbage st keyid ((st.freshKey garbage keyid).map fun bytes => ⟨bytes, none⟩) := by
  intro k hk
  obtain ⟨key, hfresh, rfl⟩ := Option.map_eq_some_iff.mp hk
  exact ⟨key, hfresh, Or.inl ⟨rfl, rfl⟩⟩

/-- A derived key is not empty. -/
theorem length_freshKey {keyid : BitVec 16} {key : Bytes} (h : st.freshKey garbage keyid = some key) :
    key.length ≠ 0 := by
  have happend : ∀ (dst : Key × ℕ) (k : Option Key),
      (appendKey dst k).1.bytes.length = dst.1.bytes.length := by
    intro dst k
    unfold appendKey
    split
    · rfl
    · exact Key.length_copyIn _ _ _
  unfold AuthState.freshKey AuthState.derive computeHashkey at h
  dsimp only at h
  rw [if_pos rfl] at h
  split_ifs at h with hzero hle
  · cases h
  · rw [← Option.some.inj h, happend, happend, happend, Key.length_alloc]
    exact hzero
  · rw [← Option.some.inj h, happend, happend, happend, Key.length_alloc]
    exact hzero

/-- The cache of outgoing keys holds a key for the key id, shortened by another hash function only if it
was there before. -/
theorem useAssocKey_spec (h : Coherent H garbage st) (keyid : BitVec 16) :
    ∃ cached, st.useAssocKey ⟨garbage, []⟩ keyid =
        { st with assocKey := cached, assocKeyid := keyid } ∧
      CachedFor H garbage st keyid cached ∧
      ∀ hmacId, SafeKey garbage st st.assocKeyid st.assocKey keyid hmacId →
        ∃ k, cached = some k ∧ (k.shortened = none ∨ k.shortened = some hmacId) := by
  unfold AuthState.useAssocKey
  by_cases hmiss : keyid ≠ st.assocKeyid ∨ st.assocKey.isNone
  · rw [if_pos hmiss]
    refine ⟨_, rfl, cachedFor_fresh keyid, ?_⟩
    intro hmacId hsafe
    obtain ⟨key, hkey⟩ := Option.isSome_iff_exists.mp hsafe.1
    refine ⟨⟨key, none⟩, ?_, Or.inl rfl⟩
    exact congrArg (Option.map fun bytes => (⟨bytes, none⟩ : CachedKey)) hkey
  · rw [if_neg hmiss]
    push Not at hmiss
    obtain ⟨rfl, hsome⟩ := hmiss
    refine ⟨st.assocKey, rfl, h.assoc, ?_⟩
    intro hmacId hsafe
    cases hk : st.assocKey with
    | none =>
      rw [hk] at hsome
      exact absurd rfl hsome
    | some k => exact ⟨k, rfl, hsafe.2 rfl k hk⟩

/-- A write inside the storage goes through, and the storage keeps its size. -/
theorem writeAt_some {m : List (Mbuf (BitVec 8))} {i o : ℕ} {bytes : Bytes} {b : Mbuf (BitVec 8)}
    (hb : m[i]? = some b) (hfits : o + bytes.length ≤ b.storage.length) :
    ∃ m' b', writeAt m i o bytes = some m' ∧ m'[i]? = some b' ∧
      b'.storage.length = b.storage.length := by
  induction m generalizing i with
  | nil => cases hb
  | cons c ms ih =>
    cases i with
    | zero =>
      obtain rfl : c = b := Option.some.inj hb
      refine ⟨c.mapIdx (fun k x => if o ≤ k then bytes.getD (k - o) x else x) :: ms, _, ?_, rfl, ?_⟩
      · unfold writeAt Mbuf.write
        rw [if_pos hfits]
        rfl
      · simp [Mbuf.mapIdx]
    | succ i =>
      obtain ⟨m', b', hm', hb', hlen⟩ := ih hb
      refine ⟨c :: m', b', ?_, hb', hlen⟩
      unfold writeAt
      rw [hm']
      rfl

theorem OutPacket.prepare_some {sha256 : Bool} (p : OutPacket sha256) (keyid : BitVec 16) :
    ∃ m b, p.prepare keyid = some m ∧ m[p.mbuf]? = some b ∧
      p.start + (8 + Bytes.size32 (digestLen sha256 p.hmacId)) ≤ b.storage.length := by
  obtain ⟨b, hb, hfits⟩ := p.fits
  have hzeros : p.start + 8 +
      (List.replicate (Bytes.size32 (digestLen sha256 p.hmacId)) (0 : BitVec 8)).length ≤
        b.storage.length := by
    rw [List.length_replicate]
    omega
  obtain ⟨m₁, b₁, hm₁, hb₁, hlen₁⟩ := writeAt_some hb hzeros
  have hid : p.start + 4 + (Bytes.enc16 keyid.toNat).length ≤ b₁.storage.length := by
    rw [Bytes.length_enc16]
    omega
  obtain ⟨m₂, b₂, hm₂, hb₂, hlen₂⟩ := writeAt_some hb₁ hid
  refine ⟨m₂, b₂, ?_, hb₂, by omega⟩
  unfold OutPacket.prepare
  rw [hm₁]
  exact hm₂

theorem length_digestOf {id : BitVec 16} {key : Option CachedKey} {text digest : Bytes}
    (h : digest ∈ (digestOf H id key text).2) : digest.length ≤ digestLen H.sha256 id := by
  unfold digestOf at h
  cases key with
  | none => cases h
  | some k =>
    dsimp only at h
    by_cases hid : digestLen H.sha256 id = 0
    · rw [if_pos hid] at h
      cases h
    · rw [if_neg hid] at h
      dsimp only at h
      split_ifs at h
      · cases h
      · rw [← Option.some.inj h]
        exact (H.length_hash id _ hid).le

theorem OutPacket.fill_some {sha256 : Bool} (p : OutPacket sha256) {m : List (Mbuf (BitVec 8))}
    {b : Mbuf (BitVec 8)} (hb : m[p.mbuf]? = some b)
    (hroom : p.start + (8 + Bytes.size32 (digestLen sha256 p.hmacId)) ≤ b.storage.length)
    {digest : Option Bytes} (hdigest : ∀ d ∈ digest, d.length ≤ digestLen sha256 p.hmacId) :
    ∃ m', p.fill m digest = some m' := by
  cases digest with
  | none => exact ⟨m, rfl⟩
  | some d =>
    have hd := hdigest d rfl
    have hle := Bytes.le_size32 (digestLen sha256 p.hmacId)
    have hfits : p.start + 8 + d.length ≤ b.storage.length := by omega
    obtain ⟨m', _, hm', _⟩ := writeAt_some hb hfits
    exact ⟨m', hm'⟩

/-- What `sctp_fill_hmac_digest_m` computes, in terms of the text that it hashes. -/
theorem fillHmacDigestM_eq (H : Hashes) (mem : Memory) (st : AuthState) (p : OutPacket H.sha256)
    (keyid : BitVec 16) :
    ∃ m m', p.prepare keyid = some m ∧
      fillHmacDigestM H mem st p keyid =
        some ({ st.useAssocKey mem keyid with
                assocKey := (digestOf H p.hmacId (st.useAssocKey mem keyid).assocKey
                  ((flat m).drop p.authOffset)).1 },
          (digestOf H p.hmacId (st.useAssocKey mem keyid).assocKey ((flat m).drop p.authOffset)).2,
          m') := by
  obtain ⟨m, b, hm, hb, hroom⟩ := p.prepare_some keyid
  have hne : m ≠ [] := by
    rintro rfl
    cases hb
  have hdigest : ∀ d ∈ (digestOf H p.hmacId (st.useAssocKey mem keyid).assocKey
      ((flat m).drop p.authOffset)).2, d.length ≤ digestLen H.sha256 p.hmacId := by
    intro d hd
    exact length_digestOf hd
  obtain ⟨m', hm'⟩ := p.fill_some hb hroom hdigest
  refine ⟨m, m', hm, ?_⟩
  unfold fillHmacDigestM
  rw [hm]
  simp only [Option.bind_eq_bind, Option.bind_some]
  rw [computeHmacM_eq H _ _ hne]
  simp only [Option.bind_some]
  rw [hm']
  rfl

theorem Coherent.sendExact (h : Coherent H garbage st) {p : OutPacket H.sha256} {keyid : BitVec 16}
    (hsafe : digestLen H.sha256 p.hmacId ≠ 0 →
      SafeKey garbage st st.assocKeyid st.assocKey keyid p.hmacId) :
    SendExact H garbage st p keyid := by
  obtain ⟨m, m', hm, hfill⟩ := fillHmacDigestM_eq H ⟨garbage, []⟩ st p keyid
  refine ⟨m, _, hm, hfill, ?_⟩
  intro hid
  obtain ⟨cached, huse, hcached, hsame⟩ := useAssocKey_spec h keyid
  obtain ⟨k, rfl, hk⟩ := hsame p.hmacId (hsafe hid)
  obtain ⟨key, hkey, hderived⟩ := hcached k rfl
  dsimp only
  rw [huse, hkey]
  exact digestOf_derived hderived hid (length_freshKey hkey) hk _

theorem Coherent.send (h : Coherent H garbage st) {p : OutPacket H.sha256} {keyid : BitVec 16}
    {r : AuthState × Option Bytes × List (Mbuf (BitVec 8))}
    (hr : fillHmacDigestM H ⟨garbage, []⟩ st p keyid = some r) : Coherent H garbage r.1 := by
  obtain ⟨m, m', _, hfill⟩ := fillHmacDigestM_eq H ⟨garbage, []⟩ st p keyid
  obtain ⟨cached, huse, hcached, _⟩ := useAssocKey_spec h keyid
  rw [hfill, huse] at hr
  rw [← Option.some.inj hr]
  exact h.setAssoc (hcached.digestOf _ _)

theorem useRecvKey_spec (h : Coherent H garbage st) {stack : Bytes} {keyid : BitVec 16}
    {st' : AuthState} (huse : st.useRecvKey ⟨garbage, stack⟩ keyid = some st') :
    ∃ cached, st' = { st with recvKey := cached, recvKeyid := keyid } ∧
      CachedFor H garbage st keyid cached ∧ (keyOf st.sharedKeys keyid).isSome ∧
      ∀ hmacId, SafeKey garbage st st.recvKeyid st.recvKey keyid hmacId →
        ∃ k, cached = some k ∧ (k.shortened = none ∨ k.shortened = some hmacId) := by
  unfold AuthState.useRecvKey at huse
  by_cases hmiss : st.recvKey.isNone ∨ st.recvKeyid ≠ keyid
  · rw [if_pos hmiss] at huse
    obtain ⟨skey, hfind, rfl⟩ := Option.map_eq_some_iff.mp huse
    have hfresh : st.derive ⟨garbage, stack⟩ skey.key = st.freshKey garbage keyid := by
      unfold AuthState.freshKey
      rw [hfind]
      rfl
    refine ⟨_, rfl, ?_, ?_, ?_⟩
    · rw [hfresh]
      exact cachedFor_fresh keyid
    · unfold keyOf
      rw [hfind]
      rfl
    · intro hmacId hsafe
      obtain ⟨key, hkey⟩ := Option.isSome_iff_exists.mp hsafe.1
      refine ⟨⟨key, none⟩, ?_, Or.inl rfl⟩
      rw [hfresh, hkey]
      rfl
  · rw [if_neg hmiss] at huse
    obtain rfl := Option.some.inj huse
    push Not at hmiss
    obtain ⟨hsome, rfl⟩ := hmiss
    cases hk : st.recvKey with
    | none =>
      rw [hk] at hsome
      exact absurd rfl hsome
    | some k =>
      refine ⟨some k, ?_, ?_, h.recvFound (by rw [hk]; rfl), ?_⟩
      · rw [← hk]
      · rw [← hk]
        exact h.recv
      · intro hmacId hsafe
        exact ⟨k, rfl, hsafe.2 rfl k rfl⟩

theorem useRecvKey_eq_none {mem : Memory} {keyid : BitVec 16} (h : st.useRecvKey mem keyid = none) :
    findSharedkey st.sharedKeys keyid = none := by
  unfold AuthState.useRecvKey at h
  split at h
  · exact Option.map_eq_none_iff.mp h
  · cases h

/-- The verdict over the bytes of the packet. -/
theorem Coherent.verifyAuth (h : Coherent H garbage st) {auth : AuthChunk} {p : InPacket}
    {stack : Bytes} (hsafe : isSupportedHmac st.localHmacs auth.hmacId = true →
      (findSharedkey st.sharedKeys auth.sharedKeyId).isSome →
      8 + digestLen H.sha256 auth.hmacId ≤ auth.chunkLength.toNat →
      SafeKey garbage st st.recvKeyid st.recvKey auth.sharedKeyId auth.hmacId) :
    (verifyAuth H ⟨garbage, stack⟩ st auth (flat p.m) p.offset).2 = true ↔
      Acceptable H garbage st auth p := by
  unfold Auth.verifyAuth Acceptable
  dsimp only
  by_cases hhead : auth.chunkLength.toNat < 8
  · rw [if_pos hhead]
    constructor
    · intro hfalse
      cases hfalse
    · rintro ⟨_, _, hlen, _⟩
      omega
  · rw [if_neg hhead]
    by_cases hsupported : isSupportedHmac st.localHmacs auth.hmacId = false
    · rw [if_pos hsupported]
      constructor
      · intro hfalse
        cases hfalse
      · rintro ⟨htrue, _⟩
        rw [hsupported] at htrue
        cases htrue
    rw [if_neg hsupported]
    have htrue : isSupportedHmac st.localHmacs auth.hmacId = true := by simpa using hsupported
    have hid : digestLen H.sha256 auth.hmacId ≠ 0 := by
      apply h.hmacs
      unfold isSupportedHmac at htrue
      rw [Bool.and_eq_true] at htrue
      exact List.contains_iff_mem.mp htrue.2
    cases huse : st.useRecvKey ⟨garbage, stack⟩ auth.sharedKeyId with
    | none =>
      constructor
      · intro hfalse
        cases hfalse
      · rintro ⟨_, hfound, _⟩
        rw [useRecvKey_eq_none huse] at hfound
        cases hfound
    | some st' =>
      obtain ⟨cached, rfl, hcached, hkeyOf, hsame⟩ := useRecvKey_spec h huse
      have hfound : (findSharedkey st.sharedKeys auth.sharedKeyId).isSome := by
        unfold keyOf at hkeyOf
        rwa [Option.isSome_map] at hkeyOf
      dsimp only
      by_cases hshort : auth.chunkLength.toNat < 8 + digestLen H.sha256 auth.hmacId
      · rw [if_pos hshort]
        constructor
        · intro hfalse
          cases hfalse
        · rintro ⟨_, _, hlen, _⟩
          omega
      · rw [if_neg hshort]
        obtain ⟨k, rfl, hk⟩ := hsame auth.hmacId (hsafe htrue hfound (Nat.le_of_not_lt hshort))
        obtain ⟨key, hkey, hderived⟩ := hcached k rfl
        rw [digestOf_derived hderived hid (length_freshKey hkey) hk, hkey, Option.getD_some,
          Option.getD_some, decide_eq_true_eq]
        have htake : ∀ text, (H.hmac auth.hmacId key text).take (digestLen H.sha256 auth.hmacId) =
            H.hmac auth.hmacId key text := by
          intro text
          apply List.take_of_length_le
          exact (H.length_hash auth.hmacId _ hid).le
        rw [htake]
        exact ⟨fun heq => ⟨htrue, hfound, Nat.le_of_not_lt hshort, heq⟩, fun hall => hall.2.2.2⟩

theorem useRecvKey_isSome {mem : Memory} {keyid : BitVec 16} (h : Coherent H garbage st)
    (huse : (st.useRecvKey mem keyid).isSome) : (findSharedkey st.sharedKeys keyid).isSome := by
  unfold AuthState.useRecvKey at huse
  split at huse
  · rwa [Option.isSome_map] at huse
  · next hhit =>
    push Not at hhit
    have hfound := h.recvFound (by
      cases hk : st.recvKey with
      | none =>
        rw [hk] at hhit
        exact absurd rfl hhit.1
      | some k => rfl)
    unfold keyOf at hfound
    rw [Option.isSome_map, hhit.2] at hfound
    exact hfound

theorem Coherent.receiveExact (h : Coherent H garbage st) {auth : AuthChunk} {p : InPacket}
    {stack : Bytes} (hsafe : Safe H garbage st (.receive auth p stack)) :
    ReceiveExact H garbage st auth p stack := by
  have hwithin := handleAuth_of_within H ⟨garbage, stack⟩ st auth p.inside p.small
    fun htrue huse hlen => (hsafe htrue (useRecvKey_isSome h huse) hlen).2
  refine ⟨_, hwithin, ?_⟩
  exact h.verifyAuth fun htrue hfound hlen => (hsafe htrue hfound hlen).1

theorem computeHmacM_key {id : BitVec 16} {key : Option CachedKey} {m : List (Mbuf (BitVec 8))}
    {offset : ℕ} {r : Option CachedKey × Option Bytes}
    (h : computeHmacM H id key m offset = some r) {keyid : BitVec 16}
    (hkey : CachedFor H garbage st keyid key) : CachedFor H garbage st keyid r.1 := by
  by_cases hm : m = []
  · subst hm
    cases key with
    | none =>
      rw [← Option.some.inj h]
      exact hkey
    | some k =>
      have hempty : computeHmacM H id (some k) [] offset = some (some k, none) := by
        unfold computeHmacM
        exact if_pos (Or.inl List.isEmpty_nil)
      rw [hempty] at h
      rw [← Option.some.inj h]
      exact hkey
  · rw [computeHmacM_eq H id key hm offset] at h
    rw [← Option.some.inj h]
    exact hkey.digestOf _ _

theorem Coherent.receive (h : Coherent H garbage st) {auth : AuthChunk} {p : InPacket}
    {stack : Bytes} {r : AuthState × Bool}
    (hr : handleAuth H ⟨garbage, stack⟩ st auth p.m p.offset = some r) : Coherent H garbage r.1 := by
  unfold handleAuth at hr
  by_cases hhead : auth.chunkLength.toNat < 8
  · rw [if_pos hhead] at hr
    rw [← Option.some.inj hr]
    exact h
  rw [if_neg hhead] at hr
  by_cases hsupported : isSupportedHmac st.localHmacs auth.hmacId = false
  · rw [if_pos hsupported] at hr
    rw [← Option.some.inj hr]
    exact h
  rw [if_neg hsupported] at hr
  cases huse : st.useRecvKey ⟨garbage, stack⟩ auth.sharedKeyId with
  | none =>
    rw [huse] at hr
    rw [← Option.some.inj hr]
    exact h
  | some st' =>
    rw [huse] at hr
    obtain ⟨cached, rfl, hcached, hfound, _⟩ := useRecvKey_spec h huse
    dsimp only at hr
    by_cases hshort : auth.chunkLength.toNat < 8 + digestLen H.sha256 auth.hmacId
    · rw [if_pos hshort] at hr
      rw [← Option.some.inj hr]
      exact h.setRecv hcached hfound
    · rw [if_neg hshort] at hr
      obtain ⟨m, _, hr⟩ := Option.bind_eq_some_iff.mp hr
      obtain ⟨d, hd, hr⟩ := Option.bind_eq_some_iff.mp hr
      rw [← Option.some.inj hr]
      exact h.setRecv (computeHmacM_key hd hcached) hfound

theorem Coherent.step (h : Coherent H garbage st) (e : KeyEvent H.sha256) {st' : AuthState}
    (hstep : stepKeys H garbage st e = some st') : Coherent H garbage st' := by
  cases e with
  | setKey keyid key =>
    cases hstep
    exact h.setKey keyid key
  | delete keyid =>
    cases hstep
    exact h.deleteSharedkey keyid
  | activate keyid =>
    cases hstep
    exact h.setactivekey keyid
  | deactivate keyid =>
    cases hstep
    exact h.deactSharedkey keyid
  | send p keyid =>
    obtain ⟨r, hr, rfl⟩ := Option.map_eq_some_iff.mp hstep
    exact h.send hr
  | receive auth p stack =>
    obtain ⟨r, hr, rfl⟩ := Option.map_eq_some_iff.mp hstep
    exact h.receive hr

theorem Coherent.noHistory (h : Coherent H garbage st) {e : KeyEvent H.sha256}
    (hsafe : Safe H garbage st e) : NoHistory H garbage st e := by
  cases e with
  | send p keyid => exact h.sendExact hsafe
  | receive auth p stack => exact h.receiveExact hsafe
  | _ => exact trivial

theorem digestLen_of_mem_hmaclist {sha256 : Bool} {maxAlgo : ℕ} {ids : List (BitVec 16)}
    {id : BitVec 16} (h : id ∈ hmaclist sha256 maxAlgo ids) : digestLen sha256 id ≠ 0 := by
  have hadd : ∀ (ids list : List (BitVec 16)), (∀ id ∈ list, digestLen sha256 id ≠ 0) →
      ∀ id ∈ ids.foldl (addHmacid sha256 maxAlgo) list, digestLen sha256 id ≠ 0 := by
    intro ids
    induction ids with
    | nil =>
      intro list hlist
      exact hlist
    | cons new ids ih =>
      intro list hlist
      apply ih
      intro id hid
      unfold addHmacid at hid
      split_ifs at hid with hfull hunknown hdup
      · exact hlist id hid
      · exact hlist id hid
      · exact hlist id hid
      · rcases List.mem_append.mp hid with hid | hid
        · exact hlist id hid
        · obtain rfl := List.mem_singleton.mp hid
          push Not at hunknown
          unfold digestLen
          by_cases hsha1 : id = hmacIdSha1
          · rw [if_pos hsha1]
            decide
          · rw [if_neg hsha1, if_pos (hunknown hsha1)]
            decide
  exact hadd ids [] (fun id hid => absurd hid List.not_mem_nil) id h

def AuthState.fresh (sha256 : Bool) (random peerRandom : Option Key) (keys : List SharedKey)
    (maxAlgo : ℕ) (ids : List (BitVec 16)) (activeKeyid assocKeyid recvKeyid : BitVec 16) :
    AuthState where
  random := random
  peerRandom := peerRandom
  sharedKeys := keys
  localHmacs := hmaclist sha256 maxAlgo ids
  activeKeyid := activeKeyid
  assocKeyid := assocKeyid
  assocKey := none
  recvKeyid := recvKeyid
  recvKey := none

/-- In a run of safe steps no digest and no verdict depends on the steps before. -/
theorem keyRun_noHistory (H : Hashes) (garbage : ℕ → BitVec 8) (random peerRandom : Option Key)
    (keys : List SharedKey) (maxAlgo : ℕ) (ids : List (BitVec 16))
    (activeKeyid assocKeyid recvKeyid : BitVec 16) (es : List (KeyEvent H.sha256))
    (hsafe : Trace.Along (stepKeys H garbage) (Safe H garbage)
      (.fresh H.sha256 random peerRandom keys maxAlgo ids activeKeyid assocKeyid recvKeyid) es) :
    Trace.Along (stepKeys H garbage) (NoHistory H garbage)
      (.fresh H.sha256 random peerRandom keys maxAlgo ids activeKeyid assocKeyid recvKeyid) es := by
  have hfresh : Coherent H garbage
      (.fresh H.sha256 random peerRandom keys maxAlgo ids activeKeyid assocKeyid recvKeyid) := by
    constructor
    · exact CachedFor.none _
    · exact CachedFor.none _
    · intro hsome
      cases hsome
    · intro id hid
      exact digestLen_of_mem_hmaclist hid
  exact hsafe.of_invariant (Coherent H garbage) (fun _ e _ h _ hstep => h.step e hstep)
    (fun _ _ h hok => h.noHistory hok) hfresh

instance SafeKey.decidable (garbage : ℕ → BitVec 8) (st : AuthState) (cachedId : BitVec 16)
    (cached : Option CachedKey) (keyid hmacId : BitVec 16) :
    Decidable (SafeKey garbage st cachedId cached keyid hmacId) :=
  inferInstanceAs (Decidable (_ ∧ _))

instance Safe.decidable (H : Hashes) (garbage : ℕ → BitVec 8) (st : AuthState) :
    ∀ e : KeyEvent H.sha256, Decidable (Safe H garbage st e)
  | .send _ _ => inferInstanceAs (Decidable (_ → _))
  | .receive _ _ _ => inferInstanceAs (Decidable (_ → _ → _ → _))
  | .setKey _ _ => .isTrue trivial
  | .delete _ => .isTrue trivial
  | .activate _ => .isTrue trivial
  | .deactivate _ => .isTrue trivial

instance Acceptable.decidable (H : Hashes) (garbage : ℕ → BitVec 8) (st : AuthState)
    (auth : AuthChunk) (p : InPacket) : Decidable (Acceptable H garbage st auth p) :=
  inferInstanceAs (Decidable (_ ∧ _ ∧ _ ∧ _))

/-- A chunk under key id 0 with a digest of equal bytes. -/
def sealedText (hmacId : BitVec 16) (length : ℕ) (d : BitVec 8) : Bytes :=
  [0x0f, 0] ++ Bytes.enc16 (8 + length) ++ [0, 0] ++ Bytes.enc16 hmacId.toNat ++ List.replicate length d

section SealedText

variable (hmacId : BitVec 16) {length : ℕ} (d : BitVec 8) (h : length < 256)
include h

theorem sealedText_size_lt : (sealedText hmacId length d).length + ([] : Bytes).length < 2 ^ 31 := by
  simp [sealedText]
  omega

theorem sealedText_inside :
    0 + 8 ≤ (flat [(⟨sealedText hmacId length d, [], sealedText_size_lt hmacId d h⟩ : Mbuf (BitVec 8))]).length := by
  simp [sealedText, flat]
  omega

theorem sealedText_small :
    (flat [(⟨sealedText hmacId length d, [], sealedText_size_lt hmacId d h⟩ : Mbuf (BitVec 8))]).length < 2 ^ 32 := by
  simp [sealedText, flat]
  omega

end SealedText

def sealedPacket (hmacId : BitVec 16) (length : ℕ) (d : BitVec 8) (h : length < 256) : InPacket where
  m := [⟨sealedText hmacId length d, [], sealedText_size_lt hmacId d h⟩]
  offset := 0
  inside := sealedText_inside hmacId d h
  small := sealedText_small hmacId d h

def longKey : Key := ⟨List.replicate 65 1, false⟩

/-- An association with a key that is longer than a block, and both hash functions. -/
def twoHmacs : AuthState :=
  .fresh true none none [⟨0#16, some longKey, 1, false⟩] 2 [hmacIdSha256, hmacIdSha1] 0#16 0#16 0#16

def receiveSha256 : KeyEvent (sumHashes true).sha256 :=
  .receive ⟨40#16, 0#16, hmacIdSha256, List.replicate 32 35⟩
    (sealedPacket hmacIdSha256 32 35 (by decide)) []

def chunkSha1 : AuthChunk := ⟨28#16, 0#16, hmacIdSha1, List.replicate 20 141⟩

def packetSha1 : InPacket := sealedPacket hmacIdSha1 20 141 (by decide)

def receiveSha1 : KeyEvent (sumHashes true).sha256 := .receive chunkSha1 packetSha1 []

def sendSha1 : KeyEvent (sumHashes true).sha256 :=
  .send ⟨hmacIdSha1, (sealedPacket hmacIdSha1 20 0 (by decide)).m, 0, 0, 0, _, rfl, by decide⟩ 0#16

/-- Both hash functions, but the key is set again between them. -/
def parted : List (KeyEvent (sumHashes true).sha256) :=
  [sendSha1, receiveSha256, receiveSha256, .setKey 0#16 (some longKey), .activate 0#16, receiveSha1,
    sendSha1]

theorem partedRun_noHistory : Trace.Along (stepKeys (sumHashes true) fun _ => 0)
    (NoHistory (sumHashes true) fun _ => 0) twoHmacs parted := by
  have hsafe : Trace.Along (stepKeys (sumHashes true) fun _ => 0) (Safe (sumHashes true) fun _ => 0)
      twoHmacs parted := by
    decide +kernel
  exact keyRun_noHistory (sumHashes true) (fun _ => 0) none none [⟨0#16, some longKey, 1, false⟩] 2
    [hmacIdSha256, hmacIdSha1] 0#16 0#16 0#16 parted hsafe

/-- The first chunk shortens the cached key by the one hash function; a chunk with a right digest of the
other one is refused after it. -/
theorem mixedRun_history : ¬ Trace.Along (stepKeys (sumHashes true) fun _ => 0)
    (NoHistory (sumHashes true) fun _ => 0) twoHmacs [receiveSha256, receiveSha1] := by
  intro h
  have hfacts : (stepKeys (sumHashes true) (fun _ => 0) twoHmacs receiveSha256).map (fun st =>
      ((handleAuth (sumHashes true) noMemory st chunkSha1 packetSha1.m packetSha1.offset).map Prod.snd,
        decide (Acceptable (sumHashes true) (fun _ => 0) st chunkSha1 packetSha1))) =
      some (some false, true) := by
    decide +kernel
  obtain ⟨st, hst, hpair⟩ := Option.map_eq_some_iff.mp hfacts
  obtain ⟨r, hr, hiff⟩ := (h.2 st hst).1
  obtain ⟨hverdict, hacc⟩ := Prod.mk.inj hpair
  rw [show handleAuth (sumHashes true) noMemory st chunkSha1 packetSha1.m packetSha1.offset = some r
    from hr] at hverdict
  have hfalse : r.2 = false := Option.some.inj hverdict
  have htrue := hiff.mpr (of_decide_eq_true hacc)
  rw [hfalse] at htrue
  cases htrue

end Sctp.Auth
