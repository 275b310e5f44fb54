import Sctp.Auth.Sha1
import Sctp.Auth.Verdict

/-! `sctp_hmac` and `sctp_hmac_m` over the contexts of SHA-1, in a build without SHA-256. -/
namespace Sctp.Auth

open Sha1 (Context sha1)

def hmacInit (id : BitVec 16) (ctx : Context) : Context := if id = hmacIdSha1 then ctx.init else ctx

def hmacUpdate (id : BitVec 16) (ctx : Context) (text : Bytes) : Option Context :=
  if id = hmacIdSha1 then ctx.update text else some ctx

/-- `sctp_hmac_final` into a buffer that may be longer than the digest. -/
def hmacFinal (id : BitVec 16) (ctx : Context) (digest : Bytes) : Bytes :=
  if id = hmacIdSha1 then ctx.final ++ digest.drop 20 else digest

/-- The variables of `sctp_hmac`: the context and the buffer `temp`. -/
structure HmacVars where
  ctx : Context
  temp : Bytes

namespace HmacVars

/-- A text of several pieces is hashed into `temp`. -/
def hash (v : HmacVars) (id : BitVec 16) (feed : Context → Option Context) : Option HmacVars :=
  (feed (hmacInit id v.ctx)).map fun ctx => ⟨ctx, hmacFinal id ctx v.temp⟩

/-- A key that is longer than a block is hashed, and what is used is the digest. -/
def shorten (v : HmacVars) (id : BitVec 16) (key : Bytes) : Option (HmacVars × Bytes) :=
  if blockLen false id < key.length then
    (v.hash id fun ctx => hmacUpdate id ctx key).map fun v => (v, v.temp.take (digestLen false id))
  else some (v, key)

/-- The inner hash over the text that is fed to it, and the outer hash over its digest. -/
def mac (v : HmacVars) (id : BitVec 16) (key : Bytes) (feed : Context → Option Context) : Option Bytes := do
  let (v, key) ← v.shorten id key
  let blocklen := blockLen false id
  let v ← v.hash id fun ctx => (hmacUpdate id ctx (Hashes.pad key blocklen 0x36)).bind feed
  let v ← v.hash id fun ctx =>
    (hmacUpdate id ctx (Hashes.pad key blocklen 0x5c)).bind fun ctx =>
      hmacUpdate id ctx (v.temp.take (digestLen false id))
  return v.temp.take (digestLen false id)

end HmacVars

/-- `sctp_hmac`; without a digest nothing was computed. -/
def contextHmac (v : HmacVars) (id : BitVec 16) (key text : Bytes) : Option (Option Bytes) :=
  if key.length = 0 ∨ text.length = 0 ∨ digestLen false id = 0 then some none
  else (v.mac id key fun ctx => hmacUpdate id ctx text).map some

/-- The updates with the mbufs of a chain, from the one on that the offset lies in. -/
def feedLoop (id : BitVec 16) (trailer : BitVec 32) : List (Mbuf (BitVec 8)) → ℕ → Context → Option Context
  | [], _, ctx => some ctx
  | m :: ms, o, ctx =>
    let count := if ms.isEmpty ∧ trailer ≠ 0#32 then
        BitVec.ofNat 32 m.len - (trailer + BitVec.ofNat 32 o)
      else BitVec.ofNat 32 m.len - BitVec.ofNat 32 o
    (m.read o count.toNat).bind fun text => (hmacUpdate id ctx text).bind (feedLoop id trailer ms 0)

/-- The mbufs in front of the offset are left out. -/
def feedM (id : BitVec 16) (trailer : BitVec 32) : List (Mbuf (BitVec 8)) → ℕ → Context → Option Context
  | [], _, ctx => some ctx
  | m :: ms, offset, ctx =>
    if m.len ≤ offset then feedM id trailer ms (offset - m.len) ctx else feedLoop id trailer (m :: ms) offset ctx

def contextHmacM (v : HmacVars) (id : BitVec 16) (key : Bytes) (m : List (Mbuf (BitVec 8))) (offset : ℕ)
    (trailer : BitVec 32) : Option (Option Bytes) :=
  if key.length = 0 ∨ m.isEmpty ∨ digestLen false id = 0 then some none
  else (v.mac id key (feedM id trailer m offset)).map some

theorem length_sha1 (text : Bytes) : (sha1 text).length = 20 := rfl

/-- SHA-1 of whole texts as the only hash function. -/
def sha1Hashes : Hashes where
  sha256 := false
  hash := fun id text => if id = hmacIdSha1 then sha1 text else []
  length_hash := by
    intro id text hid
    unfold digestLen at hid ⊢
    by_cases h : id = hmacIdSha1
    · rw [if_pos h, if_pos h, length_sha1]
    · simp [h] at hid

/-- With SHA-1 an AUTH chunk in two mbufs that is not cut in its digest has the verdict it has in one. -/
theorem sealedParted_cut :
    ∃ verdict,
      (handleAuth sha1Hashes noMemory oneKey (sealedChunk 15) (sealedWhole 15) 0).map Prod.snd =
        some verdict ∧
      (handleAuth sha1Hashes noMemory oneKey (sealedChunk 15) (sealedParted 15) 0).map Prod.snd =
        some verdict := by
  have hw : Within (sealedWhole 15) 8 20 ∧ Within (sealedParted 15) 8 20 := by
    constructor
    · simp [Within, sealedWhole, sealedBytes, Mbuf.len]
    · simp [Within, sealedParted, sealedBytes, Mbuf.len]
  have hflat : flat (sealedWhole 15) = flat (sealedParted 15) := by decide +kernel
  have hin : 0 + 8 ≤ (flat (sealedWhole 15)).length := by decide +kernel
  have hsmall : (flat (sealedWhole 15)).length < 2 ^ 32 := by decide +kernel
  exact ((handleAuth_cut_iff sha1Hashes noMemory oneKey (sealedChunk 15) 0#32 hflat hin
    hsmall).mpr ⟨hw, trailerFits_zero _ _, trailerFits_zero _ _⟩).1

/-- What is fed to a context is this text, however it is cut. -/
def Feeds (feed : Context → Option Context) (text : Bytes) : Prop :=
  ∀ ctx before, ctx.Hashed before → ∃ ctx', feed ctx = some ctx' ∧ ctx'.Hashed (before ++ text)

theorem feeds_update (text : Bytes) : Feeds (fun ctx => hmacUpdate hmacIdSha1 ctx text) text := by
  intro ctx before h
  dsimp only
  rw [hmacUpdate, if_pos rfl]
  exact h.update text

theorem Feeds.bind {feed feed' : Context → Option Context} {text text' : Bytes} (h : Feeds feed text)
    (h' : Feeds feed' text') : Feeds (fun ctx => (feed ctx).bind feed') (text ++ text') := by
  intro ctx before hctx
  obtain ⟨ctx₁, hfeed, h₁⟩ := h ctx before hctx
  obtain ⟨ctx₂, hfeed', h₂⟩ := h' ctx₁ _ h₁
  refine ⟨ctx₂, ?_, ?_⟩
  · dsimp only
    rw [hfeed, Option.bind_some, hfeed']
  · rw [← List.append_assoc]
    exact h₂

/-- The buffers are as large as they are declared. -/
structure HmacVars.Sized (v : HmacVars) : Prop where
  block : v.ctx.shaBlock.length = 64
  temp : v.temp.length = 32

variable {v : HmacVars} {key text : Bytes} {feed : Context → Option Context}

/-- What is hashed is in front in `temp`. -/
theorem HmacVars.Sized.hash (h : v.Sized) (hfeed : Feeds feed text) (hlen : text.length < 2 ^ 29) :
    ∃ v', v.hash hmacIdSha1 feed = some v' ∧ v'.Sized ∧ v'.temp.take 20 = sha1 text := by
  obtain ⟨ctx', hfed, hctx'⟩ := hfeed v.ctx.init [] (Sha1.Context.hashed_init h.block)
  rw [List.nil_append] at hctx'
  have hfinal : ctx'.final = sha1 text := hctx'.final hlen
  have htemp := h.temp
  refine ⟨⟨ctx', sha1 text ++ v.temp.drop 20⟩, ?_, ⟨hctx'.length, ?_⟩, ?_⟩
  · rw [HmacVars.hash, hmacInit, if_pos rfl, hfed, Option.map_some, hmacFinal, if_pos rfl, hfinal]
  · rw [List.length_append, length_sha1, List.length_drop, htemp]
  · exact List.take_left' (length_sha1 text)

theorem HmacVars.Sized.shorten (h : v.Sized) (hlen : key.length < 2 ^ 29) :
    ∃ v', v.shorten hmacIdSha1 key = some (v', sha1Hashes.blockKey hmacIdSha1 key) ∧ v'.Sized := by
  have hblock : blockLen sha1Hashes.sha256 hmacIdSha1 = blockLen false hmacIdSha1 := rfl
  rw [HmacVars.shorten, Hashes.blockKey, hblock]
  by_cases hlong : blockLen false hmacIdSha1 < key.length
  · obtain ⟨v', hhash, hsized, htemp⟩ := h.hash (feeds_update key) hlen
    have hdigest : digestLen false hmacIdSha1 = 20 := rfl
    rw [if_pos hlong, if_pos hlong, hhash, hdigest, Option.map_some, htemp]
    exact ⟨v', rfl, hsized⟩
  · rw [if_neg hlong, if_neg hlong]
    exact ⟨v, rfl, h⟩

theorem length_pad (hkey : key.length ≤ 64) (x : BitVec 8) : (Hashes.pad key 64 x).length = 64 := by
  rw [Hashes.pad, List.length_map, List.length_append, List.length_replicate]
  omega

theorem length_blockKey (key : Bytes) : (sha1Hashes.blockKey hmacIdSha1 key).length ≤ 64 := by
  have hblock : blockLen sha1Hashes.sha256 hmacIdSha1 = 64 := rfl
  rw [Hashes.blockKey, hblock]
  split_ifs with hlong
  · have hlen : (sha1Hashes.hash hmacIdSha1 key).length = 20 := length_sha1 key
    omega
  · omega

/-- The two hashes over contexts are the HMAC of what is fed. -/
theorem HmacVars.Sized.mac (h : v.Sized) (hfeed : Feeds feed text) (hkey : key.length < 2 ^ 29)
    (hlen : text.length + 64 < 2 ^ 29) : v.mac hmacIdSha1 key feed = some (sha1Hashes.hmac hmacIdSha1 key text) := by
  obtain ⟨v₁, hshorten, h₁⟩ := h.shorten hkey
  have hpad : ∀ x, (Hashes.pad (sha1Hashes.blockKey hmacIdSha1 key) 64 x).length = 64 :=
    length_pad (length_blockKey key)
  generalize hbk : sha1Hashes.blockKey hmacIdSha1 key = bk at *
  have hinner : (Hashes.pad bk 64 0x36 ++ text).length < 2 ^ 29 := by
    rw [List.length_append, hpad]
    omega
  obtain ⟨v₂, hhash, h₂, htemp⟩ := h₁.hash ((feeds_update (Hashes.pad bk 64 0x36)).bind hfeed) hinner
  have houter : (Hashes.pad bk 64 0x5c ++ v₂.temp.take 20).length < 2 ^ 29 := by
    rw [List.length_append, hpad, htemp, length_sha1]
    omega
  obtain ⟨v₃, hhash', -, htemp'⟩ :=
    h₂.hash ((feeds_update (Hashes.pad bk 64 0x5c)).bind (feeds_update (v₂.temp.take 20))) houter
  have hdigest : digestLen false hmacIdSha1 = 20 := rfl
  have hblocklen : blockLen false hmacIdSha1 = 64 := rfl
  rw [HmacVars.mac, hshorten]
  change (v₁.hash hmacIdSha1 _).bind _ = _
  rw [hblocklen, hdigest, hhash, Option.bind_some]
  change (v₂.hash hmacIdSha1 _).bind _ = _
  rw [hhash', Option.bind_some]
  change some (v₃.temp.take 20) = _
  rw [htemp', htemp, Hashes.hmac, hbk]
  rfl

/-- Feeding does not come to its end, whatever was fed before. -/
def Starves (feed : Context → Option Context) : Prop := ∀ ctx before, ctx.Hashed before → feed ctx = none

theorem Feeds.bind_starves {feed' : Context → Option Context} (h : Feeds feed text) (h' : Starves feed') :
    Starves fun ctx => (feed ctx).bind feed' := by
  intro ctx before hctx
  obtain ⟨ctx₁, hfeed, h₁⟩ := h ctx before hctx
  dsimp only
  rw [hfeed, Option.bind_some]
  exact h' ctx₁ _ h₁

theorem HmacVars.Sized.mac_starves (h : v.Sized) (hfeed : Starves feed) (hkey : key.length < 2 ^ 29) :
    v.mac hmacIdSha1 key feed = none := by
  obtain ⟨v₁, hshorten, h₁⟩ := h.shorten hkey
  have hnone := (feeds_update (Hashes.pad (sha1Hashes.blockKey hmacIdSha1 key) (blockLen false hmacIdSha1) 0x36)).bind_starves
    hfeed v₁.ctx.init [] (Sha1.Context.hashed_init h₁.block)
  dsimp only at hnone
  rw [HmacVars.mac, hshorten]
  change ((hmacUpdate hmacIdSha1 v₁.ctx.init _).bind feed).map _ >>= _ = none
  rw [hnone]
  rfl

variable (trailer : BitVec 32)

/-- The updates feed the text that the model of the chain reads. -/
theorem feedLoop_spec (m : List (Mbuf (BitVec 8))) (o : ℕ) :
    (∀ text, textLoop trailer m o = some text → Feeds (feedLoop hmacIdSha1 trailer m o) text) ∧
      (textLoop trailer m o = none → Starves (feedLoop hmacIdSha1 trailer m o)) := by
  induction m generalizing o with
  | nil =>
    constructor
    · intro text htext ctx before hctx
      obtain rfl : [] = text := Option.some.inj htext
      refine ⟨ctx, rfl, ?_⟩
      rw [List.append_nil]
      exact hctx
    · intro htext
      cases htext
  | cons m ms ih =>
    obtain ⟨hsome, hnone⟩ := ih 0
    rw [textLoop]
    generalize hcount : (if ms.isEmpty ∧ trailer ≠ 0#32 then BitVec.ofNat 32 m.len - (trailer + BitVec.ofNat 32 o)
      else BitVec.ofNat 32 m.len - BitVec.ofNat 32 o) = count
    have hloop : ∀ ctx, feedLoop hmacIdSha1 trailer (m :: ms) o ctx =
        (m.read o count.toNat).bind fun text =>
          (hmacUpdate hmacIdSha1 ctx text).bind (feedLoop hmacIdSha1 trailer ms 0) := by
      intro ctx
      rw [feedLoop, hcount]
    cases hread : m.read o count.toNat with
    | none =>
      constructor
      · intro text htext
        cases htext
      · intro _ ctx before _
        rw [hloop, hread, Option.bind_none]
    | some piece =>
      have hpiece : ∀ ctx, feedLoop hmacIdSha1 trailer (m :: ms) o ctx =
          (hmacUpdate hmacIdSha1 ctx piece).bind (feedLoop hmacIdSha1 trailer ms 0) := by
        intro ctx
        rw [hloop, hread, Option.bind_some]
      cases hrest : textLoop trailer ms 0 with
      | none =>
        constructor
        · intro text htext
          cases htext
        · intro _ ctx before hctx
          rw [hpiece]
          exact (feeds_update piece).bind_starves (hnone hrest) ctx before hctx
      | some texts =>
        constructor
        · intro text htext ctx before hctx
          obtain rfl : piece ++ texts = text := Option.some.inj htext
          rw [hpiece]
          exact (feeds_update piece).bind (hsome texts hrest) ctx before hctx
        · intro htext
          cases htext

theorem feedM_spec (m : List (Mbuf (BitVec 8))) (offset : ℕ) :
    (∀ text, textM trailer m offset = some text → Feeds (feedM hmacIdSha1 trailer m offset) text) ∧
      (textM trailer m offset = none → Starves (feedM hmacIdSha1 trailer m offset)) := by
  induction m generalizing offset with
  | nil =>
    constructor
    · intro text htext ctx before hctx
      obtain rfl : [] = text := Option.some.inj htext
      refine ⟨ctx, rfl, ?_⟩
      rw [List.append_nil]
      exact hctx
    · intro htext
      cases htext
  | cons m ms ih =>
    by_cases hskip : m.len ≤ offset
    · have hfeed : feedM hmacIdSha1 trailer (m :: ms) offset = feedM hmacIdSha1 trailer ms (offset - m.len) := by
        funext ctx
        rw [feedM, if_pos hskip]
      rw [textM, if_pos hskip, hfeed]
      exact ih (offset - m.len)
    · have hfeed : feedM hmacIdSha1 trailer (m :: ms) offset = feedLoop hmacIdSha1 trailer (m :: ms) offset := by
        funext ctx
        rw [feedM, if_neg hskip]
      rw [textM, if_neg hskip, hfeed]
      exact feedLoop_spec trailer (m :: ms) offset

theorem digestLen_of_ne {id : BitVec 16} (h : id ≠ hmacIdSha1) : digestLen false id = 0 := by
  rw [digestLen, if_neg h]
  rfl

/-- Over real contexts the updates hash the text that the AUTH chunks are reasoned with. -/
theorem contextHmacM_eq (v : HmacVars) (hv : v.Sized) (id : BitVec 16) (key : Bytes) (m : List (Mbuf (BitVec 8)))
    (offset : ℕ) (trailer : BitVec 32) (hkey : key.length < 2 ^ 29)
    (hlen : ∀ text ∈ textM trailer m offset, text.length + 64 < 2 ^ 29) :
    contextHmacM v id key m offset trailer = hmacM sha1Hashes id key m offset trailer := by
  have hsha256 : sha1Hashes.sha256 = false := rfl
  rw [contextHmacM, hmacM, hsha256]
  by_cases hnothing : key.length = 0 ∨ m.isEmpty ∨ digestLen false id = 0
  · rw [if_pos hnothing, if_pos hnothing]
  · rw [if_neg hnothing, if_neg hnothing]
    obtain rfl : id = hmacIdSha1 := by
      by_contra hid
      exact hnothing (.inr (.inr (digestLen_of_ne hid)))
    obtain ⟨hsome, hnone⟩ := feedM_spec trailer m offset
    cases htext : textM trailer m offset with
    | none =>
      rw [hv.mac_starves (hnone htext) hkey]
      rfl
    | some text =>
      rw [hv.mac (hsome text htext) hkey (hlen text htext)]
      rfl

/-- HMAC over SHA-1, of a key of any length. -/
def hmacSha1 (key text : Bytes) : Bytes :=
  let key := if 64 < key.length then sha1 key else key
  let key := key ++ List.replicate (64 - key.length) 0
  sha1 (key.map (· ^^^ 0x5c) ++ sha1 (key.map (· ^^^ 0x36) ++ text))

theorem hmac_sha1Hashes (key text : Bytes) : sha1Hashes.hmac hmacIdSha1 key text = hmacSha1 key text := rfl

theorem digestLen_eq_zero_iff (id : BitVec 16) : digestLen false id = 0 ↔ id ≠ hmacIdSha1 := by
  constructor
  · rintro h rfl
    cases h
  · exact digestLen_of_ne

/-- `sctp_hmac_m` computes the HMAC of the bytes of the chain from the offset on, without a trailer that lies
in the last mbuf. -/
theorem contextHmacM_flat (v : HmacVars) (hv : v.Sized) (id : BitVec 16) (key : Bytes) (m : List (Mbuf (BitVec 8)))
    (offset : ℕ) (trailer : BitVec 32) (hkey : key.length < 2 ^ 29) (hlen : (flat m).length + 64 < 2 ^ 29)
    (hfits : TrailerFits trailer m offset) :
    contextHmacM v id key m offset trailer =
      some (if key = [] ∨ m = [] ∨ id ≠ hmacIdSha1 then none
        else some (hmacSha1 key (((flat m).drop offset).take ((flat m).length - offset - trailer.toNat)))) := by
  have htext := (hmacExact_iff trailer m offset).mpr hfits
  unfold HmacExact at htext
  have hshort : ∀ text ∈ textM trailer m offset, text.length + 64 < 2 ^ 29 := by
    intro text h
    rw [htext] at h
    rw [← Option.some.inj h, List.length_take, List.length_drop]
    omega
  have hnothing : (key.length = 0 ∨ m.isEmpty ∨ digestLen false id = 0) ↔
      (key = [] ∨ m = [] ∨ id ≠ hmacIdSha1) := by
    rw [List.length_eq_zero_iff, List.isEmpty_iff, digestLen_eq_zero_iff]
  rw [contextHmacM_eq v hv id key m offset trailer hkey hshort, hmacM]
  change (if key.length = 0 ∨ m.isEmpty ∨ digestLen false id = 0 then some none else _) = _
  by_cases hnone : key = [] ∨ m = [] ∨ id ≠ hmacIdSha1
  · rw [if_pos (hnothing.mpr hnone), if_pos hnone]
  · rw [if_neg fun h => hnone (hnothing.mp h), if_neg hnone, htext]
    obtain rfl : id = hmacIdSha1 := by
      by_contra hid
      exact hnone (.inr (.inr hid))
    rw [← hmac_sha1Hashes]
    rfl

theorem cutText_size_lt (a b : BitVec 8) : ([a, b] : Bytes).length + ([] : Bytes).length < 2 ^ 31 := by
  change 2 < 2 ^ 31
  norm_num

/-- The text `abc` in two mbufs, with a byte in front of it that is left out. -/
def cutText : List (Mbuf (BitVec 8)) :=
  [⟨[0x60, 0x61], [], cutText_size_lt _ _⟩, ⟨[0x62, 0x63], [], cutText_size_lt _ _⟩]

/-- Without the last byte, the text is `ab`. -/
theorem contextHmacM_flat_cut :
    contextHmacM ⟨Sha1.staleContext, List.replicate 32 0⟩ hmacIdSha1 [0x0b] cutText 1 1#32 =
      some (some (hmacSha1 [0x0b] [0x61, 0x62])) := by
  have hsized : HmacVars.Sized ⟨Sha1.staleContext, List.replicate 32 0⟩ :=
    ⟨List.length_replicate .., List.length_replicate ..⟩
  have hfits : TrailerFits 1#32 cutText 1 := by
    change 1 = 0 ∨ 1 + 0 ≤ 2
    omega
  have h := contextHmacM_flat _ hsized hmacIdSha1 [0x0b] cutText 1 1#32 (by decide) (by decide) hfits
  have hsome : ¬(([0x0b] : Bytes) = [] ∨ cutText = [] ∨ hmacIdSha1 ≠ hmacIdSha1) := by
    simp [cutText]
  rw [if_neg hsome] at h
  exact h

/-- `sctp_hmac` computes the same of a text that is in one piece. -/
theorem contextHmac_eq (v : HmacVars) (hv : v.Sized) (id : BitVec 16) (key text : Bytes) (hkey : key.length < 2 ^ 29)
    (hlen : text.length + 64 < 2 ^ 29) :
    contextHmac v id key text =
      some (if key.length = 0 ∨ text.length = 0 ∨ digestLen false id = 0 then none
        else some (sha1Hashes.hmac id key text)) := by
  rw [contextHmac]
  by_cases hnothing : key.length = 0 ∨ text.length = 0 ∨ digestLen false id = 0
  · rw [if_pos hnothing, if_pos hnothing]
  · rw [if_neg hnothing, if_neg hnothing]
    obtain rfl : id = hmacIdSha1 := by
      by_contra hid
      exact hnothing (.inr (.inr (digestLen_of_ne hid)))
    rw [hv.mac (feeds_update text) hkey hlen]
    rfl

end Sctp.Auth
