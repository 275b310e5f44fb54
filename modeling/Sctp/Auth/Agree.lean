import Sctp.Auth.Model

/-! When both ends build the same key vectors, and inside the memory of the key. -/
namespace Sctp.Auth

open Tlv (Param)

namespace Key

/-- A copy behind what was copied before. -/
theorem copyIn_append {done rest src : Bytes} {o : ℕ} (ho : o = done.length)
    (h : src.length ≤ rest.length) :
    copyIn ⟨done ++ rest, false⟩ o src = ⟨done ++ src ++ rest.drop src.length, false⟩ := by
  subst ho
  unfold copyIn
  congr 1
  · have hdrop : (done ++ rest).drop (done.length + src.length) = rest.drop src.length := by
      rw [← List.drop_drop, List.drop_left]
    have hlength : (done ++ (src ++ rest.drop src.length)).length = (done ++ rest).length := by
      simp only [List.length_append, List.length_drop]
      omega
    rw [List.take_left, hdrop, ← hlength, List.take_length, List.append_assoc]
  · simp only [Bool.false_or, List.length_append, decide_eq_false_iff_not]
    omega

/-- A copy that starts at the end or behind it is outside. -/
theorem overflow_copyIn (k : Key) {o : ℕ} {src : Bytes} (ho : k.bytes.length ≤ o)
    (hsrc : 0 < src.length) : (k.copyIn o src).overflow = true := by
  unfold copyIn
  rw [Bool.or_eq_true]
  right
  rw [decide_eq_true_eq]
  omega

theorem overflow_mono {k : Key} (h : k.overflow = true) (o : ℕ) (src : Bytes) :
    (k.copyIn o src).overflow = true := by
  rw [copyIn, h, Bool.true_or]

end Key

@[simp] theorem length_source (p : Bytes) (x : Param) : (source p x).length = 4 + bodyLen x :=
  Bytes.length_read _ _ _

namespace Found

variable {f : Found} {garbage : ℕ → BitVec 8} {p : Bytes}

def sourceOf (p : Bytes) (x : Option Param) : Bytes := (x.map (source p)).getD []

/-- A key that is filled up to where the next parameter goes. -/
def filled (done rest : Bytes) : Key × ℕ := (⟨done ++ rest, false⟩, done.length)

theorem copyRandom_filled {r : Param} (hr : f.random = some r) {rest : Bytes}
    (h : (source p r).length ≤ rest.length) :
    f.copyRandom p ⟨rest, false⟩ = filled (source p r) (rest.drop (source p r).length) := by
  unfold copyRandom
  rw [hr]
  have hcopy := @Key.copyIn_append [] rest (source p r) 0 rfl h
  exact Prod.ext hcopy (length_source p r).symm

theorem copyChunks_filled {done rest : Bytes} (h : (sourceOf p f.chunks).length ≤ rest.length) :
    f.copyChunks p (filled done rest) =
      filled (done ++ sourceOf p f.chunks) (rest.drop (sourceOf p f.chunks).length) := by
  unfold copyChunks
  split
  · rename_i hnone
    rw [hnone]
    change filled done rest = filled (done ++ []) rest
    rw [List.append_nil]
  · rename_i x hx
    rw [hx] at h ⊢
    have hcopy := @Key.copyIn_append done rest (source p x) done.length rfl h
    refine Prod.ext hcopy ?_
    change done.length + (4 + bodyLen x) = (done ++ source p x).length
    rw [List.length_append, length_source]

theorem copyHmacs_filled {done rest : Bytes} (h : (sourceOf p f.hmacs).length ≤ rest.length) :
    f.copyHmacs p (filled done rest) =
      ⟨done ++ sourceOf p f.hmacs ++ rest.drop (sourceOf p f.hmacs).length, false⟩ := by
  unfold copyHmacs
  split
  · rename_i hnone
    rw [hnone]
    change (⟨done ++ rest, false⟩ : Key) = ⟨done ++ [] ++ rest, false⟩
    rw [List.append_nil]
  · rename_i x hx
    rw [hx] at h ⊢
    exact Key.copyIn_append rfl h

theorem length_sourceOf (x : Option Param) :
    (sourceOf p x).length = (x.map fun x => 4 + bodyLen x).getD 0 := by
  cases x with
  | none => rfl
  | some x => exact length_source p x

/-- With a RANDOM everything is copied inside the key, one behind the other. -/
theorem concatKey_random (garbage : ℕ → BitVec 8) (p : Bytes) {r : Param} (hr : f.random = some r) :
    ∃ rest, f.concatKey garbage p =
      ⟨source p r ++ sourceOf p f.chunks ++ sourceOf p f.hmacs ++ rest, false⟩ ∧
        (f.hmacs.isSome → rest = []) := by
  obtain ⟨mem, hmem, hlen⟩ : ∃ mem, Key.alloc garbage f.keylen = ⟨mem, false⟩ ∧
      mem.length = f.keylen := ⟨_, rfl, Key.length_alloc _ _⟩
  have hchunks := length_sourceOf (p := p) f.chunks
  have hhmacs := length_sourceOf (p := p) f.hmacs
  have hrandom := length_source p r
  have hkeylen : f.keylen = (source p r).length + 4 + (f.hmacs.map bodyLen).getD 0 +
      (sourceOf p f.chunks).length := by
    rw [hchunks, hrandom, keylen, hr]
    rfl
  have hle : (sourceOf p f.hmacs).length ≤ 4 + (f.hmacs.map bodyLen).getD 0 := by
    rw [hhmacs]
    cases f.hmacs with
    | none => exact Nat.zero_le _
    | some x => exact le_rfl
  unfold concatKey
  rw [hmem, copyRandom_filled hr (by omega), copyChunks_filled (by rw [List.length_drop]; omega),
    copyHmacs_filled (by rw [List.length_drop, List.length_drop]; omega)]
  refine ⟨_, rfl, fun hsome => ?_⟩
  obtain ⟨x, hx⟩ := Option.isSome_iff_exists.1 hsome
  rw [hx] at hkeylen hhmacs
  apply List.eq_nil_of_length_eq_zero
  simp only [List.length_drop]
  rw [hx, hhmacs]
  change mem.length - _ - _ - (4 + bodyLen x) = 0
  change f.keylen = _ + 4 + bodyLen x + _ at hkeylen
  omega

/-- Without a RANDOM the next parameter is copied behind the end. -/
theorem overflow_concatKey (hr : f.random = .none) :
    (f.concatKey garbage p).overflow = (f.chunks.isSome || f.hmacs.isSome) := by
  have hlen := Key.length_alloc garbage f.keylen
  unfold concatKey copyRandom
  rw [hr]
  dsimp only
  unfold copyChunks
  cases hc : f.chunks with
  | none =>
    dsimp only
    unfold copyHmacs
    cases hh : f.hmacs with
    | none => rfl
    | some x =>
      exact Key.overflow_copyIn _ hlen.le (by rw [length_source]; omega)
  | some x =>
    have hover : ((Key.alloc garbage f.keylen).copyIn f.keylen (source p x)).overflow = true :=
      Key.overflow_copyIn _ hlen.le (by rw [length_source]; omega)
    dsimp only
    unfold copyHmacs
    cases hh : f.hmacs with
    | none => exact hover
    | some y => exact Key.overflow_mono hover _ _

def RandomLeads (f : Found) : Prop :=
  f.random.isSome ∨ f.chunks = .none ∧ f.hmacs = .none

theorem overflow_concatKey_iff : (f.concatKey garbage p).overflow = false ↔ f.RandomLeads := by
  unfold RandomLeads
  cases hr : f.random with
  | none =>
    rw [overflow_concatKey hr]
    simp
  | some r =>
    obtain ⟨rest, hkey, -⟩ := concatKey_random garbage p hr
    rw [hkey]
    simp

end Found

/-- Types that are known to `sctp_load_addresses_from_init`. -/
def knownTypes : List ℕ := addressTypes ++ (supportedChunkExt :: authTypes) ++ quietTypes

/-- A parameter of AUTH that does not fit into the buffer. -/
def oversized (type plen : ℕ) : Bool := type ∈ authTypes && paramBufferSize < plen

/-- The loop of `sctp_load_addresses_from_init` ends at such a parameter. -/
def loadStops (type plen : ℕ) : Bool :=
  oversized type plen || (type ∉ knownTypes && type < 0x8000)

def processed (stops : ℕ → ℕ → Bool) (xs : List Param) : List Param :=
  xs.takeWhile fun x => !stops x.type x.plen

def firstOf (type : ℕ) (xs : List Param) : Option Param := (xs.filter (·.type = type)).head?

def lastOf (type : ℕ) (xs : List Param) : Option Param := (xs.filter (·.type = type)).getLast?

def firstFound (xs : List Param) : Found :=
  ⟨firstOf randomParam xs, firstOf hmacList xs, firstOf chunkList xs⟩

def lastFound (xs : List Param) : Found :=
  ⟨lastOf randomParam xs, lastOf hmacList xs, lastOf chunkList xs⟩

def Found.or (f g : Found) : Found :=
  ⟨f.random.or g.random, f.hmacs.or g.hmacs, f.chunks.or g.chunks⟩

def single (x : Param) : Found where
  random := if x.type = randomParam then some x else none
  hmacs := if x.type = hmacList then some x else none
  chunks := if x.type = chunkList then some x else none

theorem Found.or_assoc (f g h : Found) : (f.or g).or h = f.or (g.or h) := by
  simp [Found.or, Option.or_assoc]

theorem firstOf_cons (type : ℕ) (x : Param) (xs : List Param) :
    firstOf type (x :: xs) = (if x.type = type then some x else none).or (firstOf type xs) := by
  unfold firstOf
  rw [List.filter_cons]
  simp only [decide_eq_true_eq]
  split
  · rfl
  · rfl

theorem lastOf_cons (type : ℕ) (x : Param) (xs : List Param) :
    lastOf type (x :: xs) = (lastOf type xs).or (if x.type = type then some x else none) := by
  unfold lastOf
  rw [List.filter_cons]
  simp only [decide_eq_true_eq]
  split
  · rw [List.getLast?_cons]
    cases (xs.filter (·.type = type)).getLast? with
    | none => rfl
    | some y => rfl
  · rw [Option.or_none]

theorem firstFound_cons (x : Param) (xs : List Param) :
    firstFound (x :: xs) = (single x).or (firstFound xs) := by
  unfold firstFound
  rw [firstOf_cons, firstOf_cons, firstOf_cons]
  rfl

theorem lastFound_cons (x : Param) (xs : List Param) :
    lastFound (x :: xs) = (lastFound xs).or (single x) := by
  unfold lastFound
  rw [lastOf_cons, lastOf_cons, lastOf_cons]
  rfl

theorem Found.or_empty (f : Found) : f.or .none = f := by
  simp [Found.or, Found.none]

theorem Found.empty_or (f : Found) : Found.none.or f = f := rfl

theorem Found.or_random {f : Found} (h : f.random.isSome) (x : Param) :
    f.or ⟨some x, .none, .none⟩ = f := by
  obtain ⟨y, hy⟩ := Option.isSome_iff_exists.1 h
  unfold Found.or
  rw [hy, Option.some_or, Option.or_none, Option.or_none, ← hy]

theorem Found.or_hmacs {f : Found} (h : f.hmacs.isSome) (x : Param) :
    f.or ⟨.none, some x, .none⟩ = f := by
  obtain ⟨y, hy⟩ := Option.isSome_iff_exists.1 h
  unfold Found.or
  rw [hy, Option.some_or, Option.or_none, Option.or_none, ← hy]

theorem Found.or_chunks {f : Found} (h : f.chunks.isSome) (x : Param) :
    f.or ⟨.none, .none, some x⟩ = f := by
  obtain ⟨y, hy⟩ := Option.isSome_iff_exists.1 h
  unfold Found.or
  rw [hy, Option.some_or, Option.or_none, Option.or_none, ← hy]

variable {stops : ℕ → ℕ → Bool} {x : Param} {xs : List Param}

theorem processed_go (h : stops x.type x.plen = false) :
    processed stops (x :: xs) = x :: processed stops xs := by
  rw [processed, List.takeWhile_cons, h]
  rfl

theorem processed_stop (h : stops x.type x.plen = true) : processed stops (x :: xs) = [] := by
  rw [processed, List.takeWhile_cons, h]
  rfl

theorem single_other (hx : x.type ∉ authTypes) : single x = .none := by
  simp only [authTypes, List.mem_cons, List.not_mem_nil, or_false, not_or] at hx
  unfold single
  rw [if_neg hx.1, if_neg hx.2.1, if_neg hx.2.2]
  rfl

theorem single_random (hx : x.type = randomParam) : single x = ⟨some x, none, none⟩ := by
  unfold single
  rw [if_pos hx, if_neg (hx ▸ by decide), if_neg (hx ▸ by decide)]

theorem single_hmacs (hx : x.type = hmacList) : single x = ⟨none, some x, none⟩ := by
  unfold single
  rw [if_neg (hx ▸ by decide), if_pos hx, if_neg (hx ▸ by decide)]

theorem single_chunks (hx : x.type = chunkList) : single x = ⟨none, none, some x⟩ := by
  unfold single
  rw [if_neg (hx ▸ by decide), if_neg (hx ▸ by decide), if_pos hx]

variable {e : LoadEnv} {p : Bytes} {s s' : LoadState} {f f' : Found}

theorem loadStops_of_known (hx : x.type ∈ knownTypes)
    (hplen : x.type ∈ authTypes → ¬paramBufferSize < x.plen) : loadStops x.type x.plen = false := by
  by_cases hauth : x.type ∈ authTypes
  · simp [loadStops, oversized, hx, not_lt.1 (hplen hauth)]
  · simp [loadStops, oversized, hx, hauth]

/-- Types that are known and not those of AUTH. -/
theorem not_auth_of_known (hx : x.type ∈ addressTypes ++ supportedChunkExt :: quietTypes) :
    x.type ∉ authTypes := by
  revert hx
  simp only [addressTypes, quietTypes, List.cons_append, List.nil_append, List.mem_cons,
    List.not_mem_nil, or_false, authTypes, not_or]
  intro hx
  obtain h | h | h | h | h | h | h | h | h | h | h | h | h | h | h | h | h := hx <;> rw [h] <;> decide

/-- A turn goes on at a parameter that does not stop the loop, and takes it if nothing of its kind was
found before. -/
theorem loadParam_go (h : loadParam e p x s = .go s') :
    loadStops x.type x.plen = false ∧ s'.toFound = s.toFound.or (single x) := by
  have hknown : x.type ∈ addressTypes ++ supportedChunkExt :: quietTypes →
      loadStops x.type x.plen = false ∧ s.toFound = s.toFound.or (single x) := by
    intro hx
    have hauth := not_auth_of_known hx
    refine ⟨loadStops_of_known ?_ (absurd · hauth), ?_⟩
    · simp only [knownTypes, List.mem_append, List.mem_cons] at hx ⊢
      tauto
    · rw [single_other hauth, Found.or_empty]
  unfold loadParam at h
  by_cases haddr : x.type ∈ addressTypes
  · rw [if_pos haddr] at h
    split at h
    · cases h
    · cases h
      exact hknown (List.mem_append_left _ haddr)
  rw [if_neg haddr] at h
  by_cases hext : x.type = supportedChunkExt
  · rw [if_pos hext] at h
    split at h
    · cases h
    · cases h
      exact hknown (List.mem_append_right _ (hext ▸ List.mem_cons_self))
  rw [if_neg hext] at h
  by_cases hrandom : x.type = randomParam
  · rw [if_pos hrandom] at h
    split_ifs at h with hbig hsome hread hlen
    · cases h
      refine ⟨loadStops_of_known (hrandom ▸ by decide) fun _ => hbig, ?_⟩
      rw [single_random hrandom, Found.or_random hsome]
    · cases h
      refine ⟨loadStops_of_known (hrandom ▸ by decide) fun _ => hbig, ?_⟩
      simp [single_random hrandom, Found.or, Option.not_isSome_iff_eq_none.1 hsome]
  rw [if_neg hrandom] at h
  by_cases hhmac : x.type = hmacList
  · rw [if_pos hhmac] at h
    split_ifs at h with hbig hsome hread hverify
    · cases h
      refine ⟨loadStops_of_known (hhmac ▸ by decide) fun _ => hbig, ?_⟩
      rw [single_hmacs hhmac, Found.or_hmacs hsome]
    · cases h
      refine ⟨loadStops_of_known (hhmac ▸ by decide) fun _ => hbig, ?_⟩
      simp [single_hmacs hhmac, Found.or, Option.not_isSome_iff_eq_none.1 hsome]
  rw [if_neg hhmac] at h
  by_cases hchunk : x.type = chunkList
  · rw [if_pos hchunk] at h
    split_ifs at h with hbig hsome hread
    · cases h
      refine ⟨loadStops_of_known (hchunk ▸ by decide) fun _ => hbig, ?_⟩
      rw [single_chunks hchunk, Found.or_chunks hsome]
    · cases h
      refine ⟨loadStops_of_known (hchunk ▸ by decide) fun _ => hbig, ?_⟩
      simp [single_chunks hchunk, Found.or, LoadState.readChunks, Option.not_isSome_iff_eq_none.1 hsome]
  rw [if_neg hchunk] at h
  split_ifs at h with hquiet hlow
  · cases h
    exact hknown (List.mem_append_right _ (List.mem_cons_of_mem _ hquiet))
  · cases h
    have hauth : x.type ∉ authTypes := by simp [authTypes, hrandom, hhmac, hchunk]
    refine ⟨by simp [loadStops, oversized, hauth, hlow], ?_⟩
    rw [single_other hauth, Found.or_empty]

theorem loadParam_stop (h : loadParam e p x s = .stop) : loadStops x.type x.plen = true := by
  unfold loadParam at h
  split_ifs at h with haddr hret hext hread hrandom hbig hsome hread hlen hhmac hbig hsome hread
    hverify hchunk hbig hsome hread hquiet hlow
  · simp [loadStops, oversized, hrandom, hbig, authTypes]
  · simp [loadStops, oversized, hhmac, hbig, authTypes]
  · simp [loadStops, oversized, hchunk, hbig, authTypes]
  · have hknown : x.type ∉ knownTypes := by
      simp [knownTypes, authTypes, haddr, hext, hrandom, hhmac, hchunk, hquiet]
    simp [loadStops, hknown, hlow]

/-- The loop of `sctp_load_addresses_from_init` finds the first parameter of each kind. -/
theorem scan_loadParam (h : scan (loadParam e p) xs s = .ok s') :
    s'.toFound = s.toFound.or (firstFound (processed loadStops xs)) := by
  induction xs generalizing s with
  | nil =>
    cases h
    exact (Found.or_empty _).symm
  | cons x xs ih =>
    unfold scan at h
    cases hturn : loadParam e p x s with
    | go t =>
      rw [hturn] at h
      obtain ⟨hpasses, hfound⟩ := loadParam_go hturn
      rw [ih h, processed_go hpasses, firstFound_cons, hfound, Found.or_assoc]
    | stop =>
      rw [hturn] at h
      cases h
      rw [processed_stop (loadParam_stop hturn)]
      exact (Found.or_empty _).symm
    | ret code =>
      rw [hturn] at h
      cases h

theorem cookieParam_go (h : cookieParam p x f = .go f') :
    oversized x.type x.plen = false ∧ f' = (single x).or f := by
  have hsmall (hbig : ¬paramBufferSize < x.plen) : oversized x.type x.plen = false := by
    simp [oversized, hbig]
  unfold cookieParam at h
  split_ifs at h with hrandom hbig hread hhmac hbig hread hchunk hbig hread
  · cases h
    exact ⟨hsmall hbig, by rw [single_random hrandom]; rfl⟩
  · cases h
    exact ⟨hsmall hbig, by rw [single_hmacs hhmac]; rfl⟩
  · cases h
    exact ⟨hsmall hbig, by rw [single_chunks hchunk]; rfl⟩
  · cases h
    have hauth : x.type ∉ authTypes := by simp [authTypes, hrandom, hhmac, hchunk]
    exact ⟨by simp [oversized, hauth], by rw [single_other hauth]; rfl⟩

theorem cookieParam_stop (h : cookieParam p x f = .stop) : oversized x.type x.plen = true := by
  unfold cookieParam at h
  split_ifs at h with hrandom hbig hread hhmac hbig hread hchunk hbig hread
  · simp [oversized, hrandom, hbig, authTypes]
  · simp [oversized, hhmac, hbig, authTypes]
  · simp [oversized, hchunk, hbig, authTypes]

/-- The loop of `sctp_auth_get_cookie_params` finds the last parameter of each kind. -/
theorem scan_cookieParam (h : scan (cookieParam p) xs f = .ok f') :
    f' = (lastFound (processed oversized xs)).or f := by
  induction xs generalizing f with
  | nil =>
    cases h
    exact (Found.empty_or _).symm
  | cons x xs ih =>
    unfold scan at h
    cases hturn : cookieParam p x f with
    | go t =>
      rw [hturn] at h
      obtain ⟨hpasses, rfl⟩ := cookieParam_go hturn
      rw [ih h, processed_go hpasses, lastFound_cons, Found.or_assoc]
    | stop =>
      rw [hturn] at h
      cases h
      rw [processed_stop (cookieParam_stop hturn)]
      exact (Found.empty_or _).symm
    | ret code =>
      rw [hturn] at h
      cases h

/-- A parameter of AUTH that the buffer of the packet does not hold. -/
def Unread (p : Bytes) (xs : List Param) : Prop := ∃ x ∈ xs, x.type ∈ authTypes ∧ unreadable p x = true

theorem cookieParam_ret {code : ℤ} (h : cookieParam p x f = .ret code) :
    oversized x.type x.plen = false ∧ x.type ∈ authTypes ∧ unreadable p x = true := by
  unfold cookieParam at h
  split_ifs at h with hrandom hbig hread hhmac hbig hread hchunk hbig hread
  · exact ⟨by simp [oversized, hbig], by simp [authTypes, hrandom], hread⟩
  · exact ⟨by simp [oversized, hbig], by simp [authTypes, hhmac], hread⟩
  · exact ⟨by simp [oversized, hbig], by simp [authTypes, hchunk], hread⟩

theorem cookieParam_readable (h : cookieParam p x f = .go f') (hx : x.type ∈ authTypes) :
    unreadable p x = false := by
  unfold cookieParam at h
  split_ifs at h with hrandom hbig hread hhmac hbig hread hchunk hbig hread
  · exact Bool.not_eq_true _ ▸ hread
  · exact Bool.not_eq_true _ ▸ hread
  · exact Bool.not_eq_true _ ▸ hread
  · simp [authTypes, hrandom, hhmac, hchunk] at hx

/-- The loop is left with a return exactly if some parameter of AUTH cannot be read. -/
theorem scan_cookieParam_error_iff :
    (∃ code, scan (cookieParam p) xs f = .error code) ↔ Unread p (processed oversized xs) := by
  induction xs generalizing f with
  | nil =>
    constructor
    · rintro ⟨code, h⟩
      cases h
    · rintro ⟨x, hx, -⟩
      cases hx
  | cons x xs ih =>
    unfold scan
    cases hturn : cookieParam p x f with
    | go t =>
      rw [processed_go (cookieParam_go hturn).1]
      refine ih.trans ⟨?_, ?_⟩
      · rintro ⟨y, hy, h⟩
        exact ⟨y, List.mem_cons_of_mem _ hy, h⟩
      · rintro ⟨y, hy, hauth, hread⟩
        obtain rfl | hy := List.mem_cons.1 hy
        · rw [cookieParam_readable hturn hauth] at hread
          cases hread
        · exact ⟨y, hy, hauth, hread⟩
    | stop =>
      rw [processed_stop (cookieParam_stop hturn)]
      constructor
      · rintro ⟨code, h⟩
        cases h
      · rintro ⟨x, hx, -⟩
        cases hx
    | ret code =>
      obtain ⟨hpasses, hauth, hread⟩ := cookieParam_ret hturn
      rw [processed_go hpasses]
      exact ⟨fun _ => ⟨x, List.mem_cons_self, hauth, hread⟩, fun _ => ⟨code, rfl⟩⟩

theorem loadParam_ret {code : ℤ} (h : loadParam e p x s = .ret code) : code ≠ 0 := by
  unfold loadParam at h
  split_ifs at h with haddr hret
  all_goals cases h
  · exact hret
  all_goals decide

theorem scan_loadParam_error {code : ℤ} (h : scan (loadParam e p) xs s = .error code) : code ≠ 0 := by
  induction xs generalizing s with
  | nil => cases h
  | cons x xs ih =>
    unfold scan at h
    cases hturn : loadParam e p x s with
    | go t =>
      rw [hturn] at h
      exact ih h
    | stop =>
      rw [hturn] at h
      cases h
    | ret c =>
      rw [hturn] at h
      cases h
      exact loadParam_ret hturn

variable {garbage : ℕ → BitVec 8} {o limit : ℕ} {authSupported alloc : Bool} {old : Option Bytes}

/-- What the key is made of when `sctp_load_addresses_from_init` returns 0. -/
theorem loadAddressesFromInit_zero
    (h : (loadAddressesFromInit e p o limit authSupported old).ret = 0) :
    ∃ s : LoadState, s.toFound = firstFound (processed loadStops (loadParams p o limit)) ∧
      loadAddressesFromInit e p o limit authSupported old =
        ⟨0, authSupported && (s.peerSupportsAuth && s.random.isSome && s.hmacs.isSome),
          some (s.concatKey e.garbage p).bytes, (s.concatKey e.garbage p).overflow⟩ := by
  unfold loadAddressesFromInit at h ⊢
  split at h
  · contradiction
  rename_i hstart
  rw [if_neg hstart]
  cases hscan : scan (loadParam e p) (loadParams p o limit) .start with
  | error code =>
    rw [hscan] at h
    exact absurd h (scan_loadParam_error hscan)
  | ok s =>
    rw [hscan] at h
    dsimp only at h ⊢
    refine ⟨s, scan_loadParam hscan, ?_⟩
    unfold loadKey at h ⊢
    dsimp only at h ⊢
    split at h
    · contradiction
    split at h
    · cases h
    rename_i hcheck halloc
    rw [if_neg hcheck, if_neg halloc]

theorem overflow_load_iff : (loadAddressesFromInit e p o limit authSupported old).overflow = false ↔
    ((loadAddressesFromInit e p o limit authSupported old).ret = 0 →
      (firstFound (processed loadStops (loadParams p o limit))).RandomLeads) := by
  by_cases hret : (loadAddressesFromInit e p o limit authSupported old).ret = 0
  · obtain ⟨s, hs, hload⟩ := loadAddressesFromInit_zero hret
    rw [hload, ← hs]
    change _ ↔ ((0 : ℤ) = 0 → _)
    rw [Found.overflow_concatKey_iff]
    exact ⟨fun h _ => h, fun h => h rfl⟩
  · refine ⟨fun _ h => absurd h hret, fun _ => ?_⟩
    unfold loadAddressesFromInit at hret ⊢
    split
    · rfl
    rename_i hstart
    rw [if_neg hstart] at hret
    split
    · rfl
    · rename_i s hscan
      rw [hscan] at hret
      unfold loadKey at hret ⊢
      dsimp only at hret ⊢
      split
      · rfl
      rename_i hcheck
      rw [if_neg hcheck] at hret
      split
      · rfl
      · rename_i halloc
        rw [if_neg halloc] at hret
        exact absurd rfl hret

theorem overflow_cookie_iff : (authGetCookieParams alloc garbage p o limit old).2 = false ↔
    (alloc = true → ¬Unread p (processed oversized (cookieParams p o limit)) →
      (lastFound (processed oversized (cookieParams p o limit))).RandomLeads) := by
  unfold authGetCookieParams
  cases hscan : scan (cookieParam p) (cookieParams p o limit) .none with
  | error code =>
    have hunread := scan_cookieParam_error_iff.1 ⟨code, hscan⟩
    exact ⟨fun _ _ h => absurd hunread h, fun _ => rfl⟩
  | ok f =>
    have hread : ¬Unread p (processed oversized (cookieParams p o limit)) := by
      intro h
      obtain ⟨code, hcode⟩ := (scan_cookieParam_error_iff (f := .none)).2 h
      rw [hscan] at hcode
      cases hcode
    have hf : f = lastFound (processed oversized (cookieParams p o limit)) :=
      (scan_cookieParam hscan).trans (Found.or_empty _)
    cases alloc with
    | false => exact ⟨fun _ h => absurd h Bool.false_ne_true, fun _ => rfl⟩
    | true =>
      change (f.concatKey garbage p).overflow = false ↔ _
      rw [Found.overflow_concatKey_iff, hf]
      exact ⟨fun h _ _ => h, fun h => h rfl hread⟩

theorem source_eq_bytes (hlow : 4 ≤ x.plen) : source p x = x.bytes p := by
  have hlen : 4 + bodyLen x = x.plen := by
    rw [bodyLen, if_pos hlow]
    omega
  rw [source, hlen, Param.bytes]

theorem mem_of_firstOf {type : ℕ} (h : firstOf type xs = some x) : x ∈ xs ∧ x.type = type := by
  have hmem := List.mem_filter.1 (List.mem_of_head? h)
  exact ⟨hmem.1, of_decide_eq_true hmem.2⟩

/-- The parameters of AUTH have room for their headers. -/
def Headed (xs : List Param) : Prop := ∀ x ∈ xs, x.type ∈ authTypes → 4 ≤ x.plen

theorem source_firstOf (hhead : Headed (processed loadStops (loadParams p o limit))) {type : ℕ}
    (htype : type ∈ authTypes)
    (h : firstOf type (processed loadStops (loadParams p o limit)) = some x) :
    source p x = x.bytes p := by
  obtain ⟨hmem, hx⟩ := mem_of_firstOf h
  exact source_eq_bytes (hhead x hmem (hx ▸ htype))

/-- The first parameters of each kind that the loop comes to, behind each other. -/
theorem peerRandom_eq (h : (loadAddressesFromInit e p o limit authSupported old).ret = 0)
    (hauth : (loadAddressesFromInit e p o limit authSupported old).authSupported = true) :
    ∃ r m, firstOf randomParam (processed loadStops (loadParams p o limit)) = some r ∧
      firstOf hmacList (processed loadStops (loadParams p o limit)) = some m ∧
      (loadAddressesFromInit e p o limit authSupported old).peerRandom = some (source p r ++
        Found.sourceOf p (firstOf chunkList (processed loadStops (loadParams p o limit))) ++
          source p m) := by
  obtain ⟨s, hs, hload⟩ := loadAddressesFromInit_zero h
  rw [hload] at hauth ⊢
  simp only [Bool.and_eq_true] at hauth
  obtain ⟨-, ⟨-, hrandom⟩, hhmacs⟩ := hauth
  obtain ⟨r, hr⟩ := Option.isSome_iff_exists.1 hrandom
  obtain ⟨m, hm⟩ := Option.isSome_iff_exists.1 hhmacs
  obtain ⟨rest, hkey, hrest⟩ := Found.concatKey_random e.garbage p hr
  rw [hrest hhmacs, List.append_nil, hm] at hkey
  rw [hkey, hs]
  refine ⟨r, m, ?_, ?_, rfl⟩
  · rw [← hr, hs]
    rfl
  · rw [← hm, hs]
    rfl

open Tlv (place encode)

theorem written_map_bytes (ts : List Tlv) : written (ts.map Tlv.bytes) = encode ts := by
  simp [written, encode, Function.comp_def]

theorem ends_of_writtenLength {o limit : ℕ} {ts : List Tlv}
    (h : o + writtenLength (ts.map Tlv.bytes) ≤ limit) : ∀ x ∈ place o ts, x.offset + x.plen ≤ limit := by
  induction ts generalizing o with
  | nil =>
    intro x hx
    cases hx
  | cons t ts ih =>
    have hsize := Bytes.le_size32 t.length
    intro x hx
    cases ts with
    | nil =>
      obtain rfl : x = ⟨t.type, o, t.length⟩ := List.mem_singleton.1 hx
      have h : o + t.bytes.length ≤ limit := h
      rw [Tlv.length_bytes] at h
      exact h
    | cons u us =>
      have h : o + (Bytes.size32 t.bytes.length + writtenLength ((u :: us).map Tlv.bytes)) ≤ limit := h
      rw [Tlv.length_bytes] at h
      obtain rfl | hx := List.mem_cons.1 hx
      · change o + t.length ≤ limit
        omega
      · exact ih (by omega) x hx

/-- A loop over written parameters comes to each of them. -/
theorem walk_written {need : ℕ} (hneed : 0 < need) (hheader : need ≤ 4) {pre : Bytes} (suf : Bytes)
    {ts : List Tlv} {limit : ℕ} (hend : EndsAt pre.length (ts.map Tlv.bytes) limit) :
    Tlv.walk need (pre ++ (written (ts.map Tlv.bytes) ++ suf)) limit
      ((pre ++ (written (ts.map Tlv.bytes) ++ suf)).length + 1) pre.length = place pre.length ts := by
  have hhigh := hend.2
  have hlen := Tlv.length_le_encode ts
  rw [written_map_bytes] at hhigh ⊢
  apply Tlv.walk_encode hneed hheader pre suf ts (ends_of_writtenLength hend.1) hhigh
  simp only [List.length_append]
  omega

theorem processed_place (stops : ℕ → ℕ → Bool) (o : ℕ) (ts : List Tlv) :
    processed stops (place o ts) = place o (ts.takeWhile fun t => !stops t.type t.length) :=
  Tlv.takeWhile_place (fun type plen => !stops type plen) o ts

theorem map_source_filter_place (type : ℕ) (pre suf : Bytes) (ts : List Tlv) :
    ((place pre.length ts).filter (·.type = type)).map (source (pre ++ (encode ts ++ suf))) =
      (ts.filter (·.type = type)).map Tlv.bytes := by
  rw [← Tlv.map_bytes_filter_place (fun n => decide (n = type)) pre suf ts]
  apply List.map_congr_left
  intro x hx
  exact source_eq_bytes (Tlv.plen_of_mem_place (List.mem_filter.1 hx).1).1

/-- The first parameter of a kind, as it was written. -/
theorem map_source_firstOf (type : ℕ) (pre suf : Bytes) (ts : List Tlv) :
    (firstOf type (place pre.length ts)).map (source (pre ++ (encode ts ++ suf))) =
      (ts.filter (·.type = type)).head?.map Tlv.bytes := by
  rw [firstOf, ← List.head?_map, map_source_filter_place, List.head?_map]

theorem map_source_lastOf (type : ℕ) (pre suf : Bytes) (ts : List Tlv) :
    (lastOf type (place pre.length ts)).map (source (pre ++ (encode ts ++ suf))) =
      (ts.filter (·.type = type)).getLast?.map Tlv.bytes := by
  rw [lastOf, ← List.getLast?_map, map_source_filter_place, List.getLast?_map]

theorem length_serialize_hmacs (l : HmacList) : l.serialize.length = 2 * l.ids.length := by
  unfold HmacList.serialize
  induction l.ids with
  | nil => rfl
  | cons id ids ih =>
    rw [List.map_cons, List.flatten_cons, List.length_append, ih, Bytes.length_enc16, List.length_cons]
    omega

theorem length_hmacBytes (h : Option HmacList) : (hmacBytes h).length ≤ 4 := by
  cases h with
  | none => exact Nat.zero_le _
  | some l =>
    have hsub : l.ids ⊆ [1, 3] := by
      intro id hid
      simpa using l.known id hid
    have := (l.nodup.subperm hsub).length_le
    rw [hmacBytes, length_serialize_hmacs]
    simp only [List.length_cons, List.length_nil] at this
    omega

theorem length_chunkBytes (c : Option ChunkList) : (chunkBytes c).length ≤ 256 := by
  cases c with
  | none => exact Nat.zero_le _
  | some l =>
    have h := List.length_filter_le l.chunks (List.range 256)
    rw [chunkBytes, ChunkList.serialize, List.length_map]
    rwa [List.length_range] at h

def randomTlv (rnd : Vector (BitVec 8) 32) : Tlv where
  type := randomParam
  value := rnd.toList
  type_lt := by decide
  length_lt := by simp

def hmacTlv (h : Option HmacList) : Tlv where
  type := hmacList
  value := hmacBytes h
  type_lt := by decide
  length_lt := by
    have := length_hmacBytes h
    omega

def chunkTlv (c : Option ChunkList) : Tlv where
  type := chunkList
  value := chunkBytes c
  type_lt := by decide
  length_lt := by
    have := length_chunkBytes c
    omega

/-- Parameters of AUTH as both sides can read them. -/
def AuthTlvs (ts : List Tlv) : Prop := ∀ t ∈ ts, t.type ∈ authTypes ∧ t.length ≤ paramBufferSize

theorem length_randomTlv (rnd : Vector (BitVec 8) 32) : (randomTlv rnd).length = 36 := by
  simp [randomTlv, Tlv.length]

theorem randomTlv_auth (rnd : Vector (BitVec 8) 32) :
    (randomTlv rnd).type ∈ authTypes ∧ (randomTlv rnd).length ≤ paramBufferSize := by
  rw [length_randomTlv]
  exact ⟨List.mem_cons_self, by decide⟩

theorem hmacTlv_auth (h : Option HmacList) :
    (hmacTlv h).type ∈ authTypes ∧ (hmacTlv h).length ≤ paramBufferSize := by
  have := length_hmacBytes h
  refine ⟨List.mem_cons_of_mem _ List.mem_cons_self, ?_⟩
  change 4 + (hmacBytes h).length ≤ 512
  omega

theorem chunkTlv_auth (c : Option ChunkList) :
    (chunkTlv c).type ∈ authTypes ∧ (chunkTlv c).length ≤ paramBufferSize := by
  have := length_chunkBytes c
  refine ⟨List.mem_cons_of_mem _ (List.mem_cons_of_mem _ List.mem_cons_self), ?_⟩
  change 4 + (chunkBytes c).length ≤ 512
  omega

/-- The other parameters of an INIT or an INIT-ACK: none is one of AUTH, and none of those before AUTH
stops the loop. -/
structure OtherParams (before others : List Tlv) : Prop where
  before : ∀ t ∈ before, t.type ∉ authTypes ∧ loadStops t.type t.length = false
  others : ∀ t ∈ others, t.type ∉ authTypes

theorem filter_auth {ts : List Tlv} (h : ∀ t ∈ ts, t.type ∉ authTypes) {type : ℕ}
    (htype : type ∈ authTypes) : ts.filter (·.type = type) = [] := by
  rw [List.filter_eq_nil_iff]
  intro t ht heq
  exact h t ht (of_decide_eq_true heq ▸ htype)

/-- Of the parameters that are processed those of AUTH are all that were written. -/
theorem filter_processed {before others auth : List Tlv} (hother : OtherParams before others)
    (f : ℕ → ℕ → Bool) (hbefore : ∀ t ∈ before, f t.type t.length = false)
    (hsmall : ∀ t ∈ auth, f t.type t.length = false) {type : ℕ} (htype : type ∈ authTypes) :
    ((before ++ (auth ++ others)).takeWhile fun t => !f t.type t.length).filter (·.type = type) =
      auth.filter (·.type = type) := by
  have htake : (before ++ (auth ++ others)).takeWhile (fun t => !f t.type t.length) =
      before ++ (auth ++ others.takeWhile fun t => !f t.type t.length) := by
    rw [List.takeWhile_append_of_pos, List.takeWhile_append_of_pos]
    · intro t ht
      rw [hsmall t ht]
      rfl
    · intro t ht
      rw [hbefore t ht]
      rfl
  rw [htake, List.filter_append, List.filter_append, filter_auth (fun t ht => (hother.before t ht).1) htype,
    filter_auth (fun t ht => hother.others t (List.takeWhile_prefix _ |>.subset ht)) htype,
    List.nil_append, List.append_nil]

theorem oversized_auth {t : Tlv} (h : t.length ≤ paramBufferSize) : oversized t.type t.length = false := by
  simp [oversized, h]

theorem loadStops_auth {t : Tlv} (h : t.type ∈ authTypes ∧ t.length ≤ paramBufferSize) :
    loadStops t.type t.length = false := by
  have hknown : t.type ∈ knownTypes := by
    simp only [knownTypes, List.mem_append, List.mem_cons]
    exact .inl (.inr (.inr h.1))
  simp [loadStops, oversized_auth h.2, hknown]

/-- What the loops of both sides find in parameters that were written. -/
theorem map_source_written {before others auth : List Tlv} (hother : OtherParams before others)
    (f : ℕ → ℕ → Bool) (hbefore : ∀ t ∈ before, f t.type t.length = false)
    (hsmall : ∀ t ∈ auth, f t.type t.length = false) {type : ℕ} (htype : type ∈ authTypes)
    (pre suf : Bytes) :
    (firstOf type (processed f (place pre.length (before ++ (auth ++ others))))).map
        (source (pre ++ (encode (before ++ (auth ++ others)) ++ suf))) =
      (auth.filter (·.type = type)).head?.map Tlv.bytes ∧
    (lastOf type (processed f (place pre.length (before ++ (auth ++ others))))).map
        (source (pre ++ (encode (before ++ (auth ++ others)) ++ suf))) =
      (auth.filter (·.type = type)).getLast?.map Tlv.bytes := by
  have hsplit := List.takeWhile_append_dropWhile (p := fun t : Tlv => !f t.type t.length)
    (l := before ++ (auth ++ others))
  rw [processed_place, ← filter_processed hother f hbefore hsmall htype]
  generalize hps : (before ++ (auth ++ others)).takeWhile (fun t => !f t.type t.length) = ps at *
  rw [← hsplit, Tlv.encode_append, List.append_assoc]
  exact ⟨map_source_firstOf _ _ _ _, map_source_lastOf _ _ _ _⟩

/-- The packet with the parameters in it. -/
theorem paramList_map (before others auth : List Tlv) :
    paramList before others (auth.map Tlv.bytes) = (before ++ (auth ++ others)).map Tlv.bytes := by
  simp [paramList]

variable {before others auth : List Tlv} {pre suf : Bytes}

/-- The vector that a peer stores for parameters that were written. -/
theorem peerRandom_written (hother : OtherParams before others) (hauth : AuthTlvs auth)
    (hend : EndsAt pre.length (paramList before others (auth.map Tlv.bytes)) limit)
    (hret : (loadAddressesFromInit e
      (pre ++ (written (paramList before others (auth.map Tlv.bytes)) ++ suf)) pre.length limit
      authSupported old).ret = 0)
    (hsup : (loadAddressesFromInit e
      (pre ++ (written (paramList before others (auth.map Tlv.bytes)) ++ suf)) pre.length limit
      authSupported old).authSupported = true) :
    ∃ r m, (auth.filter (·.type = randomParam)).head? = some r ∧
      (auth.filter (·.type = hmacList)).head? = some m ∧
      (loadAddressesFromInit e
        (pre ++ (written (paramList before others (auth.map Tlv.bytes)) ++ suf)) pre.length limit
        authSupported old).peerRandom =
          some (r.bytes ++ ((auth.filter (·.type = chunkList)).head?.map Tlv.bytes).getD [] ++ m.bytes) := by
  obtain ⟨x, y, hx, hy, hkey⟩ := peerRandom_eq hret hsup
  rw [paramList_map] at *
  have hloop : loadParams (pre ++ (written ((before ++ (auth ++ others)).map Tlv.bytes) ++ suf))
      pre.length limit = place pre.length (before ++ (auth ++ others)) :=
    walk_written (by decide) (by decide) suf hend
  rw [hkey]
  rw [hloop] at hx hy ⊢
  rw [written_map_bytes] at *
  have hfind (type : ℕ) (htype : type ∈ authTypes) := (map_source_written hother loadStops
    (fun t ht => (hother.before t ht).2) (fun t ht => loadStops_auth (hauth t ht)) htype pre suf).1
  have hr := hfind randomParam (by decide)
  have hm := hfind hmacList (by decide)
  have hc := hfind chunkList (by decide)
  rw [hx] at hr
  rw [hy] at hm
  obtain ⟨r, hr, hrb⟩ := Option.map_eq_some_iff.1 hr.symm
  obtain ⟨m, hm, hmb⟩ := Option.map_eq_some_iff.1 hm.symm
  refine ⟨r, m, hr, hm, ?_⟩
  rw [hrb, hmb, ← hc]
  rfl

/-- The random vector that the cookie gives for parameters that were written. -/
theorem cookieRandom_written (hother : OtherParams before others) (hauth : AuthTlvs auth)
    (hend : EndsAt pre.length (paramList before others (auth.map Tlv.bytes)) limit) {r m : Tlv}
    (hr : (auth.filter (·.type = randomParam)).getLast? = some r)
    (hm : (auth.filter (·.type = hmacList)).getLast? = some m) :
    (authGetCookieParams true garbage
      (pre ++ (written (paramList before others (auth.map Tlv.bytes)) ++ suf)) pre.length limit
      old).1 =
        some (r.bytes ++ ((auth.filter (·.type = chunkList)).getLast?.map Tlv.bytes).getD [] ++
          m.bytes) := by
  rw [paramList_map] at *
  have hloop : cookieParams (pre ++ (written ((before ++ (auth ++ others)).map Tlv.bytes) ++ suf))
      pre.length limit = place pre.length (before ++ (auth ++ others)) :=
    walk_written (by decide) (by decide) suf hend
  have hfind (type : ℕ) (htype : type ∈ authTypes) := (map_source_written hother oversized
    (fun t ht => by simp [oversized, (hother.before t ht).1]) (fun t ht => oversized_auth (hauth t ht).2)
    htype pre suf).2
  have hfr := hfind randomParam (by decide)
  have hfm := hfind hmacList (by decide)
  have hfc := hfind chunkList (by decide)
  rw [hr] at hfr
  rw [hm] at hfm
  obtain ⟨x, hx, hxb⟩ := Option.map_eq_some_iff.1 hfr
  obtain ⟨y, hy, hyb⟩ := Option.map_eq_some_iff.1 hfm
  unfold authGetCookieParams
  rw [hloop, written_map_bytes]
  cases hscan : scan (cookieParam (pre ++ (encode (before ++ (auth ++ others)) ++ suf)))
      (place pre.length (before ++ (auth ++ others))) .none with
  | error code =>
    obtain ⟨z, hz, -, hread⟩ := scan_cookieParam_error_iff.1 ⟨code, hscan⟩
    have hplace := List.takeWhile_prefix _ |>.subset hz
    have hin := ends_of_writtenLength hend.1 z hplace
    have hplen := (Tlv.plen_of_mem_place hplace).1
    have hlimit := hend.2
    rw [written_map_bytes] at hlimit
    unfold unreadable at hread
    rw [Option.isNone_iff_eq_none, Bytes.piece_eq_none_iff] at hread
    simp only [List.length_append, paramBufferSize] at hread hlimit
    omega
  | ok f =>
    have hf : f = lastFound (processed oversized (place pre.length (before ++ (auth ++ others)))) :=
      (scan_cookieParam hscan).trans (Found.or_empty _)
    have hfr : f.random = some x := hf ▸ hx
    have hfm : f.hmacs = some y := hf ▸ hy
    obtain ⟨rest, hkey, hrest⟩ := Found.concatKey_random garbage
      (pre ++ (encode (before ++ (auth ++ others)) ++ suf)) hfr
    rw [hrest (hfm ▸ rfl), List.append_nil, hfm] at hkey
    dsimp only
    rw [if_pos rfl, hkey, ← hxb, ← hyb, ← hfc, hf]
    rfl

def Key.fill (k : Key) (o : ℕ) : List Bytes → Key
  | [] => k
  | b :: bs => (k.copyIn o b).fill (o + b.length) bs

theorem Key.fill_append {done rest : Bytes} {o : ℕ} (ho : o = done.length) (bs : List Bytes)
    (h : bs.flatten.length = rest.length) : fill ⟨done ++ rest, false⟩ o bs = ⟨done ++ bs.flatten, false⟩ := by
  induction bs generalizing done rest o with
  | nil =>
    have hrest : rest = [] := List.eq_nil_of_length_eq_zero h.symm
    rw [hrest]
    rfl
  | cons b bs ih =>
    rw [List.flatten_cons, List.length_append] at h
    rw [fill, Key.copyIn_append ho (by omega), ih (by rw [List.length_append, ho])
      (by rw [List.length_drop]; omega), List.flatten_cons, List.append_assoc]

@[simp] theorem length_paramhdr (type plen : ℕ) : (paramhdr type plen).length = 4 := rfl

theorem initialKey_bytes (garbage : ℕ → BitVec 8) (rnd : Vector (BitVec 8) 32)
    (hmacs : Option HmacList) (chunks : Option ChunkList) :
    initialKey garbage rnd hmacs chunks =
      ⟨(randomTlv rnd).bytes ++ (chunkTlv chunks).bytes ++ (hmacTlv hmacs).bytes, false⟩ := by
  obtain ⟨mem, hmem, hlen⟩ : ∃ mem, Key.alloc garbage (3 * 4 + authRandomSize +
      (chunkBytes chunks).length + (hmacBytes hmacs).length) = ⟨mem, false⟩ ∧ mem.length =
        3 * 4 + authRandomSize + (chunkBytes chunks).length + (hmacBytes hmacs).length :=
    ⟨_, rfl, Key.length_alloc _ _⟩
  have hfill := @Key.fill_append [] mem 0 rfl
    [paramhdr randomParam (4 + authRandomSize), rnd.toList,
      paramhdr chunkList (4 + (chunkBytes chunks).length), chunkBytes chunks,
      paramhdr hmacList (4 + (hmacBytes hmacs).length), hmacBytes hmacs]
    (by
      rw [hlen]
      simp [paramhdr, authRandomSize]
      omega)
  unfold initialKey
  dsimp only
  rw [hmem]
  have hflatten : [paramhdr randomParam (4 + authRandomSize), rnd.toList,
      paramhdr chunkList (4 + (chunkBytes chunks).length), chunkBytes chunks,
      paramhdr hmacList (4 + (hmacBytes hmacs).length), hmacBytes hmacs].flatten =
        (randomTlv rnd).bytes ++ (chunkTlv chunks).bytes ++ (hmacTlv hmacs).bytes := by
    have hlength : (randomTlv rnd).length = 4 + authRandomSize := length_randomTlv rnd
    simp only [List.flatten_cons, List.flatten_nil, List.append_nil, paramhdr, Tlv.bytes, hlength,
      List.append_assoc]
    rfl
  rw [hflatten, List.nil_append, List.nil_append] at hfill
  rw [← hfill]
  simp only [Key.fill, length_paramhdr, Vector.length_toList]
  rfl

def initTlvs (keyAlloc : Bool) (rnd : Vector (BitVec 8) 32) (hmacs : Option HmacList)
    (chunks : Option ChunkList) : List Tlv :=
  (if keyAlloc then [randomTlv rnd] else []) ++
    ((if hmacs.isSome then [hmacTlv hmacs] else []) ++ if chunks.isSome then [chunkTlv chunks] else [])

def initAckTlvs (rnd : Vector (BitVec 8) 32) (hmacs : Option HmacList) (chunks : Option ChunkList) :
    List Tlv :=
  [randomTlv rnd, hmacTlv hmacs, chunkTlv chunks]

theorem initTlvs_auth (keyAlloc : Bool) (rnd : Vector (BitVec 8) 32) (hmacs : Option HmacList)
    (chunks : Option ChunkList) : AuthTlvs (initTlvs keyAlloc rnd hmacs chunks) := by
  intro t ht
  simp only [initTlvs, List.mem_append] at ht
  obtain ht | ht | ht := ht
  · split at ht
    · obtain rfl := List.mem_singleton.1 ht
      exact randomTlv_auth rnd
    · cases ht
  · split at ht
    · obtain rfl := List.mem_singleton.1 ht
      exact hmacTlv_auth hmacs
    · cases ht
  · split at ht
    · obtain rfl := List.mem_singleton.1 ht
      exact chunkTlv_auth chunks
    · cases ht

theorem initAckTlvs_auth (rnd : Vector (BitVec 8) 32) (hmacs : Option HmacList)
    (chunks : Option ChunkList) : AuthTlvs (initAckTlvs rnd hmacs chunks) := by
  intro t ht
  simp only [initAckTlvs, List.mem_cons, List.not_mem_nil, or_false] at ht
  obtain rfl | rfl | rfl := ht
  · exact randomTlv_auth rnd
  · exact hmacTlv_auth hmacs
  · exact chunkTlv_auth chunks

theorem paramhdr_append (t : Tlv) : paramhdr t.type t.length ++ t.value = t.bytes := by
  rw [paramhdr, List.append_assoc, Tlv.bytes]

theorem hmac_bytes (l : HmacList) :
    paramhdr hmacList (4 + 2 * l.ids.length) ++ l.serialize = (hmacTlv (some l)).bytes := by
  rw [← length_serialize_hmacs]
  exact paramhdr_append (hmacTlv (some l))

theorem chunk_bytes (c : ChunkList) :
    paramhdr chunkList (4 + c.numChunks) ++ c.serialize = (chunkTlv (some c)).bytes := by
  have hlen : c.numChunks = c.serialize.length := by
    rw [c.counted, ChunkList.serialize, List.length_map]
  rw [hlen]
  exact paramhdr_append (chunkTlv (some c))

theorem initAuthParams_eq (keyAlloc : Bool) (garbage : ℕ → BitVec 8) (rnd : Vector (BitVec 8) 32)
    (hmacs : Option HmacList) (chunks : Option ChunkList) :
    initAuthParams true (initializeAuthParams keyAlloc garbage rnd hmacs chunks) =
      (initTlvs keyAlloc rnd hmacs chunks).map Tlv.bytes := by
  have hrandom : (initialKey garbage rnd hmacs chunks).bytes.take (4 + authRandomSize) =
      (randomTlv rnd).bytes := by
    have hlength : (randomTlv rnd).bytes.length = 4 + authRandomSize := by
      rw [Tlv.length_bytes, length_randomTlv]
      rfl
    rw [initialKey_bytes, List.append_assoc, ← hlength, List.take_left]
  have hfirst : ((if keyAlloc then some (initialKey garbage rnd hmacs chunks) else none).map
      fun k => k.bytes.take (4 + authRandomSize)).toList =
        (if keyAlloc then [randomTlv rnd] else []).map Tlv.bytes := by
    cases keyAlloc with
    | false => rfl
    | true =>
      change [(initialKey garbage rnd hmacs chunks).bytes.take (4 + authRandomSize)] = _
      rw [hrandom]
      rfl
  have hsecond : (hmacs.map fun h => paramhdr hmacList (4 + 2 * h.ids.length) ++ h.serialize).toList =
      (if hmacs.isSome then [hmacTlv hmacs] else []).map Tlv.bytes := by
    cases hmacs with
    | none => rfl
    | some l =>
      rw [Option.map_some, hmac_bytes]
      rfl
  have hthird : (chunks.map fun c => paramhdr chunkList (4 + c.numChunks) ++ c.serialize).toList =
      (if chunks.isSome then [chunkTlv chunks] else []).map Tlv.bytes := by
    cases chunks with
    | none => rfl
    | some c =>
      rw [Option.map_some, chunk_bytes]
      rfl
  rw [initTlvs, List.map_append, List.map_append, ← hfirst, ← hsecond, ← hthird]
  rfl

theorem initAckAuthParams_eq (rnd : Vector (BitVec 8) 32) (hmacs : Option HmacList)
    (chunks : Option ChunkList) :
    initAckAuthParams true rnd hmacs chunks = (initAckTlvs rnd hmacs chunks).map Tlv.bytes := by
  have hrandom : paramhdr randomParam (4 + authRandomSize) ++ rnd.toList = (randomTlv rnd).bytes := by
    have h := paramhdr_append (randomTlv rnd)
    have hlength : (randomTlv rnd).length = 4 + authRandomSize := length_randomTlv rnd
    rwa [hlength] at h
  have hhmac : paramhdr hmacList (4 + (hmacBytes hmacs).length) ++ hmacBytes hmacs =
      (hmacTlv hmacs).bytes := paramhdr_append (hmacTlv hmacs)
  have hchunk : paramhdr chunkList (4 + (chunkBytes chunks).length) ++ chunkBytes chunks =
      (chunkTlv chunks).bytes := paramhdr_append (chunkTlv chunks)
  unfold initAckAuthParams
  rw [if_pos rfl, hrandom, hhmac, hchunk]
  rfl

variable {keyAlloc sent : Bool} {rnd : Vector (BitVec 8) 32} {hmacs : Option HmacList}
  {chunks : Option ChunkList}

theorem filter_random_initTlvs : (initTlvs keyAlloc rnd hmacs chunks).filter (·.type = randomParam) =
    if keyAlloc then [randomTlv rnd] else [] := by
  cases keyAlloc <;> cases hmacs <;> cases chunks <;> rfl

theorem filter_hmacs_initTlvs : (initTlvs keyAlloc rnd hmacs chunks).filter (·.type = hmacList) =
    if hmacs.isSome then [hmacTlv hmacs] else [] := by
  cases keyAlloc <;> cases hmacs <;> cases chunks <;> rfl

theorem filter_chunks_initTlvs : (initTlvs keyAlloc rnd hmacs chunks).filter (·.type = chunkList) =
    if chunks.isSome then [chunkTlv chunks] else [] := by
  cases keyAlloc <;> cases hmacs <;> cases chunks <;> rfl

/-- An association that is set up by an INIT of this code: the peer stores the random vector of the
sender exactly if the sender has a list of chunks. -/
theorem init_agrees (hother : OtherParams before others)
    (hend : EndsAt pre.length (paramList before others
      (initAuthParams sent (initializeAuthParams keyAlloc garbage rnd hmacs chunks))) limit)
    (hret : (loadAddressesFromInit e (pre ++ (written (paramList before others
      (initAuthParams sent (initializeAuthParams keyAlloc garbage rnd hmacs chunks))) ++ suf))
      pre.length limit authSupported old).ret = 0)
    (hsup : (loadAddressesFromInit e (pre ++ (written (paramList before others
      (initAuthParams sent (initializeAuthParams keyAlloc garbage rnd hmacs chunks))) ++ suf))
      pre.length limit authSupported old).authSupported = true) :
    (loadAddressesFromInit e (pre ++ (written (paramList before others
      (initAuthParams sent (initializeAuthParams keyAlloc garbage rnd hmacs chunks))) ++ suf))
      pre.length limit authSupported old).peerRandom =
        (initializeAuthParams keyAlloc garbage rnd hmacs chunks).random.map Key.bytes ↔
      chunks.isSome = true := by
  cases sent with
  | false =>
    have hnone : AuthTlvs [] := fun t ht => absurd ht List.not_mem_nil
    obtain ⟨r, m, hr, -⟩ := peerRandom_written hother hnone hend hret hsup
    cases hr
  | true =>
    rw [initAuthParams_eq] at *
    obtain ⟨r, m, hr, hm, hkey⟩ := peerRandom_written hother (initTlvs_auth _ _ _ _) hend hret hsup
    rw [hkey]
    rw [filter_random_initTlvs] at hr
    rw [filter_hmacs_initTlvs] at hm
    rw [filter_chunks_initTlvs]
    split at hr
    · rename_i halloc
      split at hm
      · cases hr
        cases hm
        change _ = (if keyAlloc = true then some (initialKey garbage rnd hmacs chunks) else none).map _ ↔ _
        rw [if_pos halloc, Option.map_some, initialKey_bytes]
        cases chunks with
        | some c => exact ⟨fun _ => rfl, fun _ => rfl⟩
        | none =>
          refine ⟨fun h => ?_, fun h => by cases h⟩
          -- The sender counts the header of a list that it does not send.
          have hlen := congrArg List.length (Option.some.inj h)
          simp [chunkTlv, chunkBytes, Tlv.length] at hlen
      · cases hm
    · cases hr

theorem initAck_agrees {others' : List Tlv} {pre' suf' : Bytes} {limit' : ℕ} {old' : Option Bytes}
    (hother : OtherParams before others) (hother' : OtherParams before others')
    (hend : EndsAt pre.length (paramList before others (initAckAuthParams sent rnd hmacs chunks)) limit)
    (hend' : EndsAt pre'.length (paramList before others' (initAckAuthParams sent rnd hmacs chunks))
      limit')
    (hret : (loadAddressesFromInit e (pre ++ (written (paramList before others
      (initAckAuthParams sent rnd hmacs chunks)) ++ suf)) pre.length limit authSupported old).ret = 0)
    (hsup : (loadAddressesFromInit e (pre ++ (written (paramList before others
      (initAckAuthParams sent rnd hmacs chunks)) ++ suf)) pre.length limit authSupported
      old).authSupported = true) :
    (loadAddressesFromInit e (pre ++ (written (paramList before others
      (initAckAuthParams sent rnd hmacs chunks)) ++ suf)) pre.length limit authSupported
      old).peerRandom =
    (authGetCookieParams true garbage (pre' ++ (written (paramList before others'
      (initAckAuthParams sent rnd hmacs chunks)) ++ suf')) pre'.length limit' old').1 := by
  cases sent with
  | false =>
    have hnone : AuthTlvs [] := fun t ht => absurd ht List.not_mem_nil
    obtain ⟨r, m, hr, -⟩ := peerRandom_written hother hnone hend hret hsup
    cases hr
  | true =>
    rw [initAckAuthParams_eq] at *
    obtain ⟨r, m, hr, hm, hkey⟩ := peerRandom_written hother (initAckTlvs_auth _ _ _) hend hret hsup
    obtain rfl : randomTlv rnd = r := Option.some.inj hr
    obtain rfl : hmacTlv hmacs = m := Option.some.inj hm
    rw [hkey, cookieRandom_written hother' (initAckTlvs_auth _ _ _) hend' (r := randomTlv rnd)
      (m := hmacTlv hmacs) rfl rfl]
    rfl

def plainEnv : LoadEnv where
  startRet := 0
  paramRet _ := 0
  keyAlloc := true
  garbage _ := 0

def sha1List : HmacList where
  ids := [1]
  known := by decide
  nodup := by decide

def asconfChunks : ChunkList where
  chunks i := i = 0x80 ∨ i = 0xc1
  numChunks := 2
  counted := by decide

def authExt : Tlv where
  type := supportedChunkExt
  value := [0x0f]
  type_lt := by decide
  length_lt := by decide

def plainRandom : Vector (BitVec 8) 32 := Vector.replicate 32 7

def plainSender : LocalAuth :=
  initializeAuthParams true plainEnv.garbage plainRandom (some sha1List) (some asconfChunks)

def plainInit : List Bytes := paramList [authExt] [] (initAuthParams true plainSender)

end Sctp.Auth
