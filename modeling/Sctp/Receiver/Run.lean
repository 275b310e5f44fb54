import Sctp.Lib.Trace
import Sctp.Receiver.Kept
import Sctp.Receiver.Reports

/-! Runs of the receiver: whatever arrives, the TSN maps and the SACKs made of them speak of chunks
that were accepted, and no chunk is accepted twice. -/
namespace Sctp
open Bitmap Serial

def freshMap (init : Tsn) : TsnMap where
  mappingArray := List.replicate 16 0
  nrMappingArray := List.replicate 16 0
  mappingArraySize := 16
  mappingArrayBaseTsn := init
  cumulativeTsn := init - 1
  highestTsnInsideMap := init - 1
  highestTsnInsideNrMap := init - 1

/-- The receiver, with what it did so far; the last two are no fields of the source. -/
structure RecvRun extends DataReceiver where
  /-- TSNs of the chunks that were accepted, in this order. -/
  accepted : List Tsn
  /-- The SACKs that were sent. -/
  sacks : List SackChunk

inductive RecvEvent where
  /-- A data chunk arrives. -/
  | chunk (env : ChunkEnv) (ch : DataChunk)
  /-- A SACK is sent. The maps are slid only for that; `sctp_sack_check` slides them without a SACK too. -/
  | sendSack (env : SackEnv)
  /-- The user takes messages from the read queue, with one that is delivered in parts as far as it has come.
  The source keeps that one on the queue and hands out what is added to it. -/
  | read (n : ℕ)
  /-- The peer resets its outgoing streams, `sctp_handle_str_reset_request_out`. -/
  | resetRequest (liste : StreamResetList)

def ChunkDone.marks : ChunkDone → Bool
  | .badStream | .taken => true
  | .ignored | .full => false

namespace RecvRun

def receive (s : RecvRun) (env : ChunkEnv) (ch : DataChunk) : Except ChunkEnd RecvRun :=
  (s.toDataReceiver.processADataChunk env ch).map fun r =>
    { s with
      toDataReceiver := r.1
      accepted := if r.2.marks then s.accepted ++ [ch.tsn] else s.accepted }

/-- The SACK of the moment, with the duplicates noted since the last one. -/
def report (s : RecvRun) (env : SackEnv) : TsnMap × SackChunk :=
  Sctp.sendSack { env with dupTsns := s.dupTsns } s.toTsnMap

def emitSack (s : RecvRun) (env : SackEnv) : RecvRun :=
  { s with
    toTsnMap := (s.report env).1
    sendSack := false
    dupTsns := []
    sacks := (s.report env).2 :: s.sacks }

/-- The streams are reset now, or when everything up to the TSN has arrived. -/
def resetRequest (s : RecvRun) (liste : StreamResetList) : RecvRun :=
  if tsnGe s.cumulativeTsn liste.tsn then
    { s with toReceiver := s.toReceiver.resetInStream liste.listOfStreams }
  else { s with resetHead := s.resetHead ++ [liste] }

end RecvRun

/-- Nothing comes of an event that ends the association, or frees a control on its queue. -/
def recvStep (s : RecvRun) : RecvEvent → Option RecvRun
  | .chunk env ch => (s.receive env ch).toOption
  | .sendSack env => some (s.emitSack env)
  | .read n => some { s with readQueue := s.readQueue.drop n }
  | .resetRequest liste => some (s.resetRequest liste)

def recvRun : RecvRun → List RecvEvent → Option RecvRun := Trace.run recvStep

/-- Places of TSNs in the sequence that starts at `init`. -/
def places (init : Tsn) (tsns : List Tsn) : Finset ℕ := (tsns.map fun t => (t - init).toNat).toFinset

theorem mem_places {init t : Tsn} {tsns : List Tsn} :
    (t - init).toNat ∈ places init tsns ↔ t ∈ tsns := by
  rw [places, List.mem_toFinset, List.mem_map]
  constructor
  · rintro ⟨u, hu, heq⟩
    obtain rfl : u = t := by bv_omega
    exact hu
  · exact fun ht => ⟨t, ht, rfl⟩

theorem advance_mem {init : Tsn} {tsns : List Tsn} {j : ℕ} (hj : j ∈ places init tsns) :
    advance init j ∈ tsns := by
  rw [places, List.mem_toFinset, List.mem_map] at hj
  obtain ⟨t, ht, rfl⟩ := hj
  rwa [advance_toNat_sub]

theorem card_places (init : Tsn) (tsns : List Tsn) : (places init tsns).card ≤ tsns.length :=
  (List.toFinset_card_le _).trans_eq (List.length_map _)

theorem places_concat (init : Tsn) (tsns : List Tsn) {j : ℕ} (hj : j < 2 ^ 32) :
    places init (tsns ++ [advance init j]) = insert j (places init tsns) := by
  ext i
  simp only [places, List.map_append, List.map_cons, List.map_nil, List.toFinset_append,
    Finset.mem_union, List.mem_toFinset, Finset.mem_insert, toNat_advance_sub init hj, List.mem_singleton]
  tauto

/-- The SACK speaks of accepted TSNs only. -/
def SackChunk.SpeaksOf (c : SackChunk) (init : Tsn) (accepted : List Tsn) : Prop :=
  (∃ next, c.cumTsnAck + 1 = advance init next ∧ ∀ j < next, advance init j ∈ accepted) ∧
    ∀ j < 2 ^ 31, c.Covers (advance init j) → advance init j ∈ accepted

/-- The maps hold the chunks that were accepted. -/
def Holding (init : Tsn) (accepted : List Tsn) (m : TsnMap) : Prop :=
  ∃ w, m.Tracks init (places init accepted) w

namespace RecvRun

structure Sound (init : Tsn) (s : RecvRun) : Prop where
  window : Holding init s.accepted s.toTsnMap
  waiting : s.toReceiver.Within fun t => t ∈ s.accepted
  nodup : s.accepted.Nodup
  sacks : ∀ c ∈ s.sacks, c.SpeaksOf init s.accepted

structure Fresh (init : Tsn) (s : RecvRun) : Prop where
  map : s.toTsnMap = freshMap init
  strmin : ∀ strmno, (s.strmin strmno).inqueue = [] ∧ (s.strmin strmno).unoInqueue = []
  pending : s.pendingReplyQueue = []
  accepted : s.accepted = []
  sacks : s.sacks = []

theorem tracks_freshMap (init : Tsn) : (freshMap init).Tracks init ∅ ⟨0, 0, 0, 0⟩ := by
  have hzero : ∀ k, isSet (List.replicate 16 (0 : Byte)) k = false := isSet_replicate_zero 16
  have hprev : init - 1 + 1 = advance init 0 := by
    rw [advance_zero]
    bv_omega
  constructor
  · exact ⟨rfl, rfl⟩
  · change 16 ≤ TsnMap.mappingArrayLimit
    decide
  · exact (advance_zero init).symm
  · exact hprev
  · exact hprev
  · exact hprev
  · exact le_rfl
  · exact fun j hj => absurd hj (Nat.not_lt_zero j)
  · intro k
    rw [TsnMap.has, freshMap, hzero]
    simp
  · intro k hk
    exact hzero k
  · intro k hk
    rw [freshMap, hzero] at hk
    cases hk
  · intro k hk
    rw [freshMap, hzero] at hk
    cases hk
  · exact Nat.zero_le _
  · exact Nat.zero_le _
  · exact fun j hj => absurd hj (Finset.notMem_empty j)

theorem Fresh.sound {init : Tsn} {s : RecvRun} (h : s.Fresh init) : s.Sound init := by
  refine ⟨⟨⟨0, 0, 0, 0⟩, ?_⟩, ⟨fun strmno => ⟨?_, ?_⟩, ?_⟩, ?_, ?_⟩
  · rw [h.map, h.accepted]
    exact tracks_freshMap init
  · rw [(h.strmin strmno).1]
    exact fun c hc => absurd hc List.not_mem_nil
  · rw [(h.strmin strmno).2]
    exact fun c hc => absurd hc List.not_mem_nil
  · rw [h.pending]
    exact fun c hc => absurd hc List.not_mem_nil
  · rw [h.accepted]
    exact List.nodup_nil
  · rw [h.sacks]
    exact fun c hc => absurd hc List.not_mem_nil

variable {init : Tsn} {s t : RecvRun}

theorem few (init : Tsn) {accepted : List Tsn} (h : accepted.length + 2 ^ 14 < 2 ^ 31) :
    TsnMap.Few (places init accepted) := by
  have := card_places init accepted
  unfold TsnMap.Few
  omega

/-- The rest of the state does not matter. -/
theorem Sound.congr (h : s.Sound init) (hmap : t.toTsnMap = s.toTsnMap)
    (hstrmin : t.strmin = s.strmin) (hpending : t.pendingReplyQueue = s.pendingReplyQueue)
    (haccepted : t.accepted = s.accepted) (hsacks : t.sacks = s.sacks) : t.Sound init := by
  refine ⟨?_, ⟨?_, ?_⟩, ?_, ?_⟩
  · rw [hmap, haccepted]
    exact h.window
  · rw [hstrmin, haccepted]
    exact h.waiting.strmin
  · rw [hpending, haccepted]
    exact h.waiting.pending
  · rw [haccepted]
    exact h.nodup
  · rw [hsacks, haccepted]
    exact h.sacks

theorem Holding.markNonRevokable {accepted : List Tsn} (hfew : TsnMap.Few (places init accepted))
    (drain : Bool) (m : TsnMap) (t : Tsn) (ht : t ∈ accepted) (h : Holding init accepted m) :
    Holding init accepted (m.markNonRevokable drain t) := by
  obtain ⟨w, hw⟩ := h
  obtain ⟨w', -, -, hw'⟩ := hw.markNonRevokable (mem_places.2 ht) hfew drain
  rw [advance_toNat_sub] at hw'
  exact ⟨w', hw'⟩

theorem Holding.bumpCumAck {accepted : List Tsn} (hfew : TsnMap.Few (places init accepted))
    (m : TsnMap) (t : Tsn) (ht : t ∈ accepted) (h : Holding init accepted m) :
    Holding init accepted (m.bumpCumAck t) := by
  obtain ⟨w, hw⟩ := h
  obtain ⟨next, hw'⟩ := hw.bumpCumAck (mem_places.2 ht) hfew
  rw [advance_toNat_sub] at hw'
  exact ⟨_, hw'⟩

/-- What `sctp_process_a_data_chunk` does to the maps and to what waits. -/
theorem processADataChunk_spec {env : ChunkEnv} {ch : DataChunk} {r : DataReceiver × ChunkDone}
    (h : s.Sound init) (hroom : (s.accepted.length + 1) + 2 ^ 14 < 2 ^ 31)
    (hr : s.toDataReceiver.processADataChunk env ch = .ok r) :
    (r.2.marks = false ∧ Holding init s.accepted r.1.toTsnMap ∧
        r.1.toReceiver.Within fun t => t ∈ s.accepted) ∨
      (r.2.marks = true ∧ ch.tsn ∉ s.accepted ∧
        Holding init (s.accepted ++ [ch.tsn]) r.1.toTsnMap ∧
        r.1.toReceiver.Within fun t => t ∈ s.accepted ++ [ch.tsn]) := by
  obtain ⟨w, hw⟩ := h.window
  have hfew : TsnMap.Few (places init s.accepted) := few init (by omega)
  unfold DataReceiver.processADataChunk at hr
  dsimp only at hr
  split at hr
  · cases hr
    exact .inl ⟨rfl, ⟨w, hw⟩, h.waiting⟩
  rename_i hahead
  split at hr
  · cases hr
    exact .inl ⟨rfl, ⟨w, hw⟩, h.waiting⟩
  rename_i hfar
  obtain ⟨hreach, hgap⟩ := hw.reach (not_le.1 hfar)
  generalize hm : s.toTsnMap.reach (calcTsnToGap ch.tsn s.mappingArrayBaseTsn).toNat = m
    at hr hreach hgap
  have hwaiting : Receiver.Within (fun t => t ∈ s.accepted) { s.toReceiver with toTsnMap := m } :=
    ⟨h.waiting.strmin, h.waiting.pending⟩
  split at hr
  · cases hr
    exact .inl ⟨rfl, ⟨w, hreach⟩, hwaiting⟩
  rename_i hnew
  split at hr
  · cases hr
  obtain ⟨r', hr', rfl⟩ := Attempt.map_ok hr
  have hr' := Attempt.mapError_ok hr'
  -- the chunk has a place in the window, and the place is free
  obtain ⟨htsn, -⟩ := hw.chunk_place hfew (by simpa using hahead) rfl (not_le.1 hfar)
  generalize hg : (calcTsnToGap ch.tsn s.mappingArrayBaseTsn).toNat = gap at *
  have hfree : w.base + gap ∉ places init s.accepted := by
    rw [← hreach.has_iff gap]
    exact hnew
  have hsmall := hreach.end_lt hfew
  have hplaces : places init (s.accepted ++ [ch.tsn]) =
      insert (w.base + gap) (places init s.accepted) := by
    rw [htsn]
    exact places_concat init s.accepted (by omega)
  have hfew' : TsnMap.Few (places init (s.accepted ++ [ch.tsn])) := by
    refine few init ?_
    rw [List.length_append, List.length_singleton]
    exact hroom
  have hset : Holding init (s.accepted ++ [ch.tsn]) (m.setPresent ch.tsn gap) := by
    have hset := hreach.setPresent hgap (not_le.1 hfar) hfree hfew
    rw [← hplaces, ← htsn] at hset
    exact ⟨_, hset⟩
  have hnr : Holding init (s.accepted ++ [ch.tsn]) (m.setNrPresent ch.tsn gap) := by
    have hset := hreach.setNrPresent hgap (not_le.1 hfar) hfree hfew
    rw [← hplaces, ← htsn] at hset
    exact ⟨_, hset⟩
  obtain ⟨hfull, heq⟩ | ⟨hmarks, hkept⟩ := Receiver.accept_kept
    (Holding.markNonRevokable hfew' _) (Holding.bumpCumAck hfew')
    (hwaiting.mono fun t ht => List.mem_append_left [ch.tsn] ht)
    (List.mem_append_right s.accepted (List.mem_singleton.2 rfl)) rfl hset hnr hr'
  · refine .inl ⟨?_, ?_, ?_⟩
    · rw [hfull]
      rfl
    · rw [heq]
      exact ⟨w, hreach⟩
    · rw [heq]
      exact hwaiting
  · refine .inr ⟨?_, ?_, hkept.map, hkept.within⟩
    · obtain heq | heq := hmarks
      · rw [heq]
        rfl
      · rw [heq]
        rfl
    · intro hmem
      apply hfree
      have hplace : (ch.tsn - init).toNat ∈ places init s.accepted := mem_places.2 hmem
      rwa [htsn, toNat_advance_sub init (by omega)] at hplace

theorem SpeaksOf.concat {c : SackChunk} {accepted : List Tsn} (h : c.SpeaksOf init accepted) (tsn : Tsn) :
    c.SpeaksOf init (accepted ++ [tsn]) := by
  obtain ⟨⟨next, hcum, hbelow⟩, hcovers⟩ := h
  refine ⟨⟨next, hcum, fun j hj => ?_⟩, fun j hj hc => ?_⟩
  · exact List.mem_append_left _ (hbelow j hj)
  · exact List.mem_append_left _ (hcovers j hj hc)

theorem Sound.receive {env : ChunkEnv} {ch : DataChunk} (h : s.Sound init)
    (hroom : (s.accepted.length + 1) + 2 ^ 14 < 2 ^ 31) (ht : s.receive env ch = .ok t) :
    t.Sound init := by
  obtain ⟨r, hr, rfl⟩ := Attempt.map_ok ht
  obtain ⟨hmarks, hmap, hwaiting⟩ | ⟨hmarks, hnew, hmap, hwaiting⟩ :=
    processADataChunk_spec h hroom hr
  · simp only [hmarks, Bool.false_eq_true, if_false]
    exact ⟨hmap, hwaiting, h.nodup, h.sacks⟩
  · simp only [hmarks, if_true]
    refine ⟨hmap, hwaiting, ?_, fun c hc => SpeaksOf.concat (h.sacks c hc) ch.tsn⟩
    exact h.nodup.append (List.nodup_singleton _) fun x hx hx' =>
      hnew (List.mem_singleton.1 hx' ▸ hx)

theorem Sound.emitSack (h : s.Sound init) (hroom : s.accepted.length + 2 ^ 14 < 2 ^ 31)
    (env : SackEnv) : (s.emitSack env).Sound init := by
  obtain ⟨w, hw⟩ := h.window
  obtain ⟨hslid, ⟨next, hcum, hbelow⟩, hcovers⟩ :=
    hw.sendSack (few init hroom) { env with dupTsns := s.dupTsns }
  refine ⟨hslid, ⟨h.waiting.strmin, h.waiting.pending⟩, h.nodup, fun c hc => ?_⟩
  obtain rfl | hc := List.mem_cons.1 hc
  · exact ⟨⟨next, hcum, fun j hj => advance_mem (hbelow j hj)⟩, fun j hj hc =>
      advance_mem (hcovers j hj hc)⟩
  · exact h.sacks c hc

theorem Sound.resetRequest (h : s.Sound init) (liste : StreamResetList) :
    (s.resetRequest liste).Sound init := by
  unfold RecvRun.resetRequest
  split
  · exact ⟨h.window, h.waiting.resetInStream liste.listOfStreams, h.nodup, h.sacks⟩
  · exact h.congr rfl rfl rfl rfl rfl

theorem recvStep_chunk {env : ChunkEnv} {ch : DataChunk} (ht : recvStep s (.chunk env ch) = some t) :
    s.receive env ch = .ok t := by
  unfold recvStep at ht
  dsimp only at ht
  revert ht
  cases s.receive env ch with
  | error f => exact fun ht => nomatch ht
  | ok u => exact fun ht => congrArg Except.ok (Option.some.inj ht)

theorem recvStep_sound {e : RecvEvent} (h : s.Sound init)
    (hroom : (s.accepted.length + 1) + 2 ^ 14 < 2 ^ 31) (ht : recvStep s e = some t) :
    t.Sound init ∧ t.accepted.length ≤ s.accepted.length + 1 := by
  cases e with
  | chunk env ch =>
    have hok := recvStep_chunk ht
    refine ⟨h.receive hroom hok, ?_⟩
    obtain ⟨r, -, rfl⟩ := Attempt.map_ok hok
    dsimp only
    split
    · rw [List.length_append, List.length_singleton]
    · exact Nat.le_succ _
  | sendSack env =>
    obtain rfl := Option.some.inj ht
    exact ⟨h.emitSack (by omega) env, Nat.le_succ _⟩
  | read n =>
    obtain rfl := Option.some.inj ht
    exact ⟨h.congr rfl rfl rfl rfl rfl, Nat.le_succ _⟩
  | resetRequest liste =>
    obtain rfl := Option.some.inj ht
    refine ⟨h.resetRequest liste, ?_⟩
    unfold RecvRun.resetRequest
    split
    · exact Nat.le_succ _
    · exact Nat.le_succ _

/-- Only a chunk that arrives can be accepted. -/
theorem recvStep_accepted {e : RecvEvent} (ht : recvStep s e = some t) : t.accepted = s.accepted ∨
    ∃ env ch, e = .chunk env ch ∧ t.accepted = s.accepted ++ [ch.tsn] := by
  cases e with
  | chunk env ch =>
    obtain ⟨r, -, rfl⟩ := Attempt.map_ok (recvStep_chunk ht)
    dsimp only
    split
    · exact .inr ⟨env, ch, rfl, rfl⟩
    · exact .inl rfl
  | sendSack env =>
    obtain rfl := Option.some.inj ht
    exact .inl rfl
  | read n =>
    obtain rfl := Option.some.inj ht
    exact .inl rfl
  | resetRequest liste =>
    obtain rfl := Option.some.inj ht
    unfold RecvRun.resetRequest
    split
    · exact .inl rfl
    · exact .inl rfl

theorem recvRun_holds {es : List RecvEvent} (h : s.Sound init)
    (hroom : (s.accepted.length + es.length) + 2 ^ 14 < 2 ^ 31) (ht : recvRun s es = some t) :
    t.Sound init ∧ t.accepted.length ≤ s.accepted.length + es.length := by
  have hstep : ∀ (s : RecvRun) (k : ℕ) (e : RecvEvent) (s' : RecvRun), s.Sound init ∧ s.accepted.length = k →
      True → k < 2 ^ 31 - 2 ^ 14 - 1 → recvStep s e = some s' →
        ∃ k' ≤ k + 1, s'.Sound init ∧ s'.accepted.length = k' := by
    rintro s k e s' ⟨hs, rfl⟩ - hk hs'
    obtain ⟨hsound, hlen⟩ := recvStep_sound hs (by omega) hs'
    exact ⟨_, hlen, hsound, rfl⟩
  obtain ⟨k, hk, hsound, rfl⟩ := Trace.run_counted _ hstep ⟨h, rfl⟩ (Trace.along_true recvStep s es)
    (by omega) ht
  exact ⟨hsound, hk⟩

/-- In every run the maps stay as a TSN reset expects them. -/
theorem recvRun_receiving (init : Tsn) (s t : RecvRun) (es : List RecvEvent) (hs : s.Fresh init)
    (hes : es.length + 2 ^ 14 < 2 ^ 31) (ht : recvRun s es = some t) : t.Receiving := by
  have hnone : s.accepted.length = 0 := by
    rw [hs.accepted]
    rfl
  obtain ⟨hsound, hlen⟩ := recvRun_holds hs.sound (by omega) ht
  obtain ⟨w, hw⟩ := hsound.window
  exact hw.receiving (few init (by omega))

/-- An association that begins, with `streamincnt` incoming streams. -/
def fresh (init : Tsn) (streamincnt : ℕ) : RecvRun where
  toTsnMap := freshMap init
  readQueue := []
  sizeOnReasmQueue := 0
  cntOnReasmQueue := 0
  sizeOnAllStreams := 0
  cntOnAllStreams := 0
  nextId := 0
  streamincnt := streamincnt
  strmin := fun _ => ⟨[], [], none, 0xffff, false⟩
  resetHead := []
  pendingReplyQueue := []
  sendSack := false
  dupTsns := []
  accepted := []
  sacks := []

theorem fresh_fresh (init : Tsn) (streamincnt : ℕ) : (fresh init streamincnt).Fresh init :=
  ⟨rfl, fun _ => ⟨rfl, rfl⟩, rfl, rfl, rfl⟩

/-- The first chunk, the third one twice with its SACK, then the second, and the SACK that has all. -/
def reordered : List RecvEvent :=
  let env : ChunkEnv := ⟨⟨true, 100, 4096⟩, false, 0, 65536⟩
  let ch (tsn : Tsn) (ssn : Ssn) : DataChunk :=
    ⟨tsn, 0, ssn, 0, ⟨true, true, false, false⟩, none, [1, 2, 3]⟩
  let sack : SackEnv := ⟨false, 65536, [], 1000, 1500⟩
  [.chunk env (ch 7 0), .chunk env (ch 9 2), .chunk env (ch 9 2), .sendSack sack,
    .chunk env (ch 8 1), .sendSack sack, .read 1]

/-- The second fragment of an unordered I-DATA message comes first, and its control is freed on its queue. -/
example : ((fresh 7 1).receive ⟨⟨true, 100, 4096⟩, false, 0, 65536⟩
    ⟨8, 0, 0, 0, ⟨false, false, true, false⟩, some (1, 1), [1, 2, 3]⟩).map RecvRun.accepted =
      .error (.fault .crash) := by
  decide +kernel

theorem recvRun_reordered :
    (recvRun (fresh 7 1) reordered).map (fun t => (t.accepted, t.sacks.map (·.gapAckBlks))) =
      some ([7, 9, 8], [[], [⟨2, 2⟩]]) := by
  decide +kernel

end RecvRun

end Sctp
