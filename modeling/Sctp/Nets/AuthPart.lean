import Sctp.Nets.Features

/-! For AUTH the loop over all the parameters of an INIT is the loop that only has those of AUTH. -/
namespace Sctp.Nets

open Asconf (Addr)
open Auth
open Tlv (Param)

variable {c : LoadCall} {e : LoadEnv} {x : Param} {s s' : Load} {t : LoadState}

structure FindsSame (s : Load) (t : LoadState) : Prop where
  random : t.random.isSome = s.gotRandom
  hmacs : t.hmacs.isSome = s.gotHmacs
  chunks : t.chunks.isSome = s.gotChklist
  auth : t.peerSupportsAuth = s.auth
  asconf : t.peerSupportsAsconf = s.asconf
  sawAsconf : t.sawAsconf = s.sawAsconf
  sawAsconfAck : t.sawAsconfAck = s.sawAsconfAck

theorem FindsSame.start (c : LoadCall) (d : Dests) (ndata : Bool) : FindsSame (.start c d ndata) .start :=
  ⟨rfl, rfl, rfl, rfl, rfl, rfl, rfl⟩

theorem FindsSame.check (h : FindsSame s t) : t.check = s.check := by
  unfold LoadState.check Load.check
  rw [h.chunks, h.auth, h.asconf, h.sawAsconf, h.sawAsconfAck]

/-- What a turn changes that is not for AUTH. -/
theorem FindsSame.frame (h : FindsSame s t) (d : Dests) (others : Addr → Option Other) (v : Vars) (inp : Bool)
    (sel : List (Addr × Option Addr)) :
    FindsSame { s with dests := d, others := others, vars := v, inpNdata := inp, selected := sel } t :=
  ⟨h.random, h.hmacs, h.chunks, h.auth, h.asconf, h.sawAsconf, h.sawAsconfAck⟩

theorem FindsSame.address (h : FindsSame s t) (hgo : (x.type = ipv4Address ∧ s.ipv4Param c x = .go s') ∨
    (x.type = ipv6Address ∧ s.ipv6Param c x = .go s')) : FindsSame s' t := by
  rcases Load.addrParam_go hgo with ⟨-, rfl⟩ | ⟨a, -, -, rfl⟩ | ⟨a, _, _, -, -, htake⟩
  · exact h
  · exact h.frame s.dests s.others (s.vars.list a) s.inpNdata s.selected
  · rcases Load.takeAddr_go htake with ⟨-, d, -, rfl⟩ | ⟨o, d, -, -, rfl⟩
    · exact h.frame d s.others (s.vars.list a) c.useNdata s.selected
    · exact h.frame d _ (s.vars.list a) o.useNdata s.selected

theorem loadParam_address (he : ∀ x, e.paramRet x = 0) {p : Bytes} (hx : x.type ∈ addressTypes) :
    loadParam e p x t = .go t := by
  unfold loadParam
  rw [if_pos hx, if_neg (not_not.2 (he x))]

/-- The types that both loops go past. -/
theorem loadParam_quiet {p : Bytes} (hx : x.type ∈ quietTypes) : loadParam e p x t = .go t := by
  have hnone : ∀ k ∈ quietTypes, k ∉ addressTypes ∧ k ≠ supportedChunkExt ∧ k ≠ randomParam ∧ k ≠ hmacList ∧
      k ≠ chunkList := by decide
  obtain ⟨haddr, hext, hrandom, hhmac, hchunks⟩ := hnone _ hx
  unfold loadParam
  rw [if_neg haddr, if_neg hext, if_neg hrandom, if_neg hhmac, if_neg hchunks, if_pos hx]

/-- Of a parameter with its header the list of HMACs is read within it. -/
theorem anyHmac_eq (hx : 4 ≤ x.plen) : ((List.range (bodyLen x / 2)).any fun i =>
    (c.view x.offset x.plen (4 + 2 * i)).toNat * 256 + (c.view x.offset x.plen (5 + 2 * i)).toNat = 1) =
      verifyHmacParam c.p x := by
  have hbody : bodyLen x = x.plen - 4 := if_pos hx
  unfold verifyHmacParam
  rw [Bool.eq_iff_iff, List.any_eq_true, List.any_eq_true]
  apply exists_congr
  intro i
  apply and_congr_right
  intro hi
  have hlt := List.mem_range.1 hi
  have hfirst : c.view x.offset x.plen (4 + 2 * i) = c.p.getD (x.offset + 4 + 2 * i) 0 := by
    rw [LoadCall.view, if_pos (by omega), Nat.add_assoc]
  have hsecond : c.view x.offset x.plen (5 + 2 * i) = c.p.getD (x.offset + 4 + 2 * i + 1) 0 := by
    rw [LoadCall.view, if_pos (by omega)]
    congr 1
    omega
  rw [hfirst, hsecond]
  rfl

theorem bytes_eq_body (c : LoadCall) (x : Param) : c.bytes x = body c.p x := rfl

theorem FindsSame.extParam (h : FindsSame s t) (hx : x.type = supportedChunkExt) (hplen : x.plen ≤ paramBufferSize)
    (hgo : s.extParam c x = .go s') : ∃ t', loadParam e c.p x t = .go t' ∧ FindsSame s' t' := by
  unfold Load.extParam at hgo
  unfold loadParam
  rw [if_neg (hx ▸ by decide), if_pos hx]
  split at hgo
  · cases hgo
  rename_i hread
  rw [if_neg hread]
  obtain rfl := Turn.go.inj hgo
  refine ⟨_, rfl, h.random, h.hmacs, h.chunks, ?_, ?_, h.sawAsconf, h.sawAsconfAck⟩
  · change (t.peerSupportsAuth || _) = (s.auth || _)
    rw [h.auth, extTypes_eq_bytes hplen, bytes_eq_body]
  · change (t.peerSupportsAsconf || _) = (s.asconf || _)
    rw [h.asconf, extTypes_eq_bytes hplen, bytes_eq_body]

theorem FindsSame.randomTurn (h : FindsSame s t) (hx : x.type = randomParam) (hgo : s.randomTurn c x = .go s') :
    ∃ t', loadParam e c.p x t = .go t' ∧ FindsSame s' t' := by
  unfold Load.randomTurn at hgo
  unfold loadParam
  rw [if_neg (hx ▸ by decide), if_neg (hx ▸ by decide), if_pos hx, h.random]
  split at hgo
  · cases hgo
  rename_i hbig
  rw [if_neg hbig]
  split at hgo
  · rename_i hgot
    obtain rfl := Turn.go.inj hgo
    exact ⟨t, if_pos hgot, h⟩
  rename_i hgot
  rw [if_neg hgot]
  split at hgo
  · cases hgo
  rename_i hread
  rw [if_neg hread]
  split at hgo
  · cases hgo
  rename_i hlen
  rw [if_neg hlen]
  obtain rfl := Turn.go.inj hgo
  exact ⟨_, rfl, rfl, h.hmacs, h.chunks, h.auth, h.asconf, h.sawAsconf, h.sawAsconfAck⟩

theorem FindsSame.hmacTurn (h : FindsSame s t) (hx : x.type = hmacList) (hhead : 4 ≤ x.plen)
    (hgo : s.hmacTurn c x = .go s') : ∃ t', loadParam e c.p x t = .go t' ∧ FindsSame s' t' := by
  unfold Load.hmacTurn at hgo
  rw [anyHmac_eq hhead] at hgo
  unfold loadParam
  rw [if_neg (hx ▸ by decide), if_neg (hx ▸ by decide), if_neg (hx ▸ by decide), if_pos hx, h.hmacs]
  split at hgo
  · cases hgo
  rename_i hbig
  rw [if_neg hbig]
  split at hgo
  · rename_i hgot
    obtain rfl := Turn.go.inj hgo
    exact ⟨t, if_pos hgot, h⟩
  rename_i hgot
  rw [if_neg hgot]
  split at hgo
  · cases hgo
  rename_i hread
  rw [if_neg hread]
  split at hgo
  · rename_i hverify
    rw [if_pos hverify]
    obtain rfl := Turn.go.inj hgo
    exact ⟨_, rfl, h.random, rfl, h.chunks, h.auth, h.asconf, h.sawAsconf, h.sawAsconfAck⟩
  · cases hgo

theorem FindsSame.chunksTurn (h : FindsSame s t) (hx : x.type = chunkList) (hhead : 4 ≤ x.plen)
    (hgo : s.chunksTurn c x = .go s') : ∃ t', loadParam e c.p x t = .go t' ∧ FindsSame s' t' := by
  have hbody : bodyLen x = x.plen - 4 := if_pos hhead
  have hread : c.p.read (x.offset + 4) (bodyLen x) = Load.chunkTypes c x := by
    rw [chunkTypes_eq_bytes hhead, bytes_eq_body, hbody]
    rfl
  unfold Load.chunksTurn at hgo
  unfold loadParam
  rw [if_neg (hx ▸ by decide), if_neg (hx ▸ by decide), if_neg (hx ▸ by decide), if_neg (hx ▸ by decide),
    if_pos hx, h.chunks]
  split at hgo
  · cases hgo
  rename_i hbig
  rw [if_neg hbig]
  split at hgo
  · rename_i hgot
    obtain rfl := Turn.go.inj hgo
    exact ⟨t, if_pos hgot, h⟩
  rename_i hgot
  rw [if_neg hgot]
  split at hgo
  · cases hgo
  rename_i hreadable
  rw [if_neg hreadable]
  obtain rfl := Turn.go.inj hgo
  refine ⟨_, rfl, h.random, h.hmacs, rfl, h.auth, h.asconf, ?_, ?_⟩
  · change (t.sawAsconf || (c.p.read (x.offset + 4) (bodyLen x)).contains chunkAsconf) = _
    rw [h.sawAsconf, hread]
  · change (t.sawAsconfAck || (c.p.read (x.offset + 4) (bodyLen x)).contains chunkAsconfAck) = _
    rw [h.sawAsconfAck, hread]

/-- Where the one loop goes on at a parameter with its header the other one does, and they find the same. -/
theorem FindsSame.turn (h : FindsSame s t) (he : ∀ x, e.paramRet x = 0) (hhead : 4 ≤ x.plen)
    (hext : x.type = supportedChunkExt → x.plen ≤ paramBufferSize) {asconfSupported : Bool}
    (hturn : s.turn c asconfSupported x = .go s') : ∃ t', loadParam e c.p x t = .go t' ∧ FindsSame s' t' := by
  rcases Load.turn_cases c asconfSupported x s with ⟨hx, heq⟩ | ⟨hx, heq⟩ | ⟨hx, heq⟩ | ⟨hx, heq⟩ |
    ⟨hx, heq⟩ | ⟨hx, heq⟩ | ⟨hx, heq⟩ | ⟨hx, heq⟩ | ⟨hx, heq⟩ | ⟨hx, heq⟩
  · exact ⟨t, loadParam_address he (hx ▸ by decide), h.address (.inl ⟨hx, heq.symm.trans hturn⟩)⟩
  · exact ⟨t, loadParam_address he (hx ▸ by decide), h.address (.inr ⟨hx, heq.symm.trans hturn⟩)⟩
  · obtain rfl := Turn.go.inj (heq.symm.trans hturn)
    exact ⟨t, loadParam_quiet (hx ▸ by decide), h.random, h.hmacs, h.chunks, h.auth, h.asconf, h.sawAsconf,
      h.sawAsconfAck⟩
  · refine ⟨t, loadParam_address he (hx ▸ by decide), ?_⟩
    rcases Load.setPrimParam_go (heq.symm.trans hturn) with ⟨-, rfl⟩ | ⟨a, -, rfl⟩
    · exact h
    · exact h.frame _ s.others (s.vars.name a) s.inpNdata _
  · obtain rfl := Turn.go.inj (heq.symm.trans hturn)
    exact ⟨t, loadParam_quiet (hx ▸ by decide), h.random, h.hmacs, h.chunks, h.auth, h.asconf, h.sawAsconf,
      h.sawAsconfAck⟩
  · exact h.extParam hx (hext hx) (heq.symm.trans hturn)
  · exact h.randomTurn hx (heq.symm.trans hturn)
  · exact h.hmacTurn hx hhead (heq.symm.trans hturn)
  · exact h.chunksTurn hx hhead (heq.symm.trans hturn)
  · rw [hturn] at heq
    split at heq
    · cases heq
    rename_i hgoes
    obtain rfl := Turn.go.inj heq
    refine ⟨t, ?_, h⟩
    by_cases hquiet : x.type ∈ quietTypes
    · exact loadParam_quiet hquiet
    · have hhigh : ¬ x.type < 0x8000 := fun hlow => hgoes ⟨hquiet, hlow⟩
      simp only [List.mem_cons, List.not_mem_nil, or_false, not_or] at hx
      obtain ⟨h4, h6, -, hprim, -, hext', hrandom, hhmac, hchunks⟩ := hx
      have haddr : x.type ∉ addressTypes := by
        simp only [addressTypes, List.mem_cons, List.not_mem_nil, or_false, not_or]
        exact ⟨h4, h6, hprim⟩
      unfold loadParam
      rw [if_neg haddr, if_neg hext', if_neg hrandom, if_neg hhmac, if_neg hchunks, if_neg hquiet,
        if_neg hhigh]

/-- Where the one loop is left the other one is. -/
theorem loadParam_of_stops {p : Bytes} (hx : stops x = true) : loadParam e p x t = .stop := by
  unfold stops at hx
  unfold loadParam
  by_cases hauth : x.type ∈ authTypes
  · rw [if_pos hauth, decide_eq_true_iff] at hx
    simp only [authTypes, List.mem_cons, List.not_mem_nil, or_false] at hauth
    rcases hauth with htype | htype | htype
    · rw [if_neg (htype ▸ by decide), if_neg (htype ▸ by decide), if_pos htype, if_pos hx]
    · rw [if_neg (htype ▸ by decide), if_neg (htype ▸ by decide), if_neg (htype ▸ by decide), if_pos htype,
        if_pos hx]
    · rw [if_neg (htype ▸ by decide), if_neg (htype ▸ by decide), if_neg (htype ▸ by decide),
        if_neg (htype ▸ by decide), if_pos htype, if_pos hx]
  · rw [if_neg hauth, Bool.and_eq_true, decide_eq_true_iff, decide_eq_true_iff, List.mem_append, not_or] at hx
    obtain ⟨⟨hlist, hquiet⟩, hlow⟩ := hx
    simp only [List.mem_cons, List.not_mem_nil, or_false, not_or] at hlist
    simp only [authTypes, List.mem_cons, List.not_mem_nil, or_false, not_or] at hauth
    have haddr : x.type ∉ addressTypes := by
      simp only [addressTypes, List.mem_cons, List.not_mem_nil, or_false, not_or]
      exact ⟨hlist.1, hlist.2.1, hlist.2.2.2.1⟩
    rw [if_neg haddr, if_neg hlist.2.2.2.2.2, if_neg hauth.1, if_neg hauth.2.1, if_neg hauth.2.2,
      if_neg hquiet, if_pos hlow]

/-- Two loops over the same parameters of which the one goes on where the other does. -/
theorem scan_simulates {σ τ : Type} {f : Param → σ → Turn σ} {g : Param → τ → Turn τ} {R : σ → τ → Prop}
    {xs : List Param} (hnostop : ∀ x ∈ xs, ∀ s, f x s ≠ .stop)
    (hstep : ∀ x ∈ xs, ∀ s t s', R s t → f x s = .go s' → ∃ t', g x t = .go t' ∧ R s' t') {s s' : σ} {t : τ}
    (hR : R s t) (h : scan f xs s = .ok s') : ∃ t', scan g xs t = .ok t' ∧ R s' t' := by
  induction xs generalizing s t with
  | nil => exact ⟨t, rfl, Except.ok.inj h ▸ hR⟩
  | cons x xs ih =>
    rw [scan] at h ⊢
    cases hx : f x s with
    | go s₁ =>
      rw [hx] at h
      obtain ⟨t₁, ht, hR₁⟩ := hstep x List.mem_cons_self s t s₁ hR hx
      rw [ht]
      exact ih (fun y hy => hnostop y (List.mem_cons_of_mem x hy))
        (fun y hy => hstep y (List.mem_cons_of_mem x hy)) hR₁ h
    | stop => exact absurd hx (hnostop x List.mem_cons_self s)
    | ret code =>
      rw [hx] at h
      cases h

/-- A call whose parameters all have their header and are as long as what is read of them is accepted by the
function for AUTH too, which leaves AUTH supported where the whole function does. -/
theorem loadAddressesFromInit_authPart {before : Features} {d : Dests} {r : Accepted}
    (h : loadAddressesFromInit c before d = .ok r) (hhead : ∀ x ∈ c.listed, 4 ≤ x.plen) (hsized : c.Sized)
    (hstart : e.startRet = 0) (hparam : ∀ x, e.paramRet x = 0) (hkey : e.keyAlloc = true) (old : Option Bytes) :
    (Auth.loadAddressesFromInit e c.p c.offset c.limit before.auth old).ret = 0 ∧
      (Auth.loadAddressesFromInit e c.p c.offset c.limit before.auth old).authSupported = r.features.auth := by
  obtain ⟨s, hwalk, hcheck, rfl⟩ := loadAddressesFromInit_ok h
  obtain ⟨d', -, hscan⟩ := walkParams_ok hwalk
  have hsame : ∃ t, scan (loadParam e c.p) c.listed .start = .ok t ∧ FindsSame s t := by
    apply scan_simulates _ _ (FindsSame.start c d' before.ndata) hscan
    · intro x hx s
      exact Load.turn_of_stops.2 (stops_of_mem_listed hx)
    · intro x hx s t s' hst hturn
      exact hst.turn hparam (hhead x hx) (hsized x hx).2 hturn
  obtain ⟨t, ht, hst⟩ := hsame
  have hstop : ∀ x (t : LoadState), stops x = true → loadParam e c.p x t = .stop :=
    fun _ _ hx => loadParam_of_stops hx
  have hall : scan (loadParam e c.p) (loadParams c.p c.offset c.limit) .start = .ok t := by
    rw [scan_takeWhile hstop]
    exact ht
  unfold Auth.loadAddressesFromInit
  rw [if_neg (not_not.2 hstart), hall]
  dsimp only
  unfold loadKey
  rw [hst.check, if_neg (not_not.2 hcheck), hkey, if_neg (by decide)]
  refine ⟨rfl, ?_⟩
  change (before.auth && (t.peerSupportsAuth && t.random.isSome && t.hmacs.isSome)) =
    (before.auth && !(!s.auth || !s.gotRandom || !s.gotHmacs))
  rw [hst.auth, hst.random, hst.hmacs, Bool.not_or, Bool.not_or, Bool.not_not, Bool.not_not, Bool.not_not]

end Sctp.Nets
