import Mathlib.Logic.Relation
import Sctp.Lib.Bytes
import Sctp.Lib.Checked

/-! `sctp_handle_packet_dropped`: the walk over the chunks of a dropped packet in a report. -/
namespace Sctp

variable {σ : Type}

def fromMiddleBox : BitVec 8 := 0x01

/-- `SCTP_NUM_DB_TO_VERIFY`, the size of `data_bytes`. -/
def numDbToVerify : ℕ := 31

/-- `sizeof(struct sctp_pktdrop_chunk)`. -/
def pktdropChunkLen : ℕ := 16

/-- `sizeof(chunk_buf) - 4` of the dispatcher. -/
def chunkBufRoom : ℕ := 508

/-- `struct sctp_chunk_desc`. -/
structure ChunkDesc where
  chunkType : BitVec 8
  dataBytes : Bytes
  tsnIfany : ℕ
deriving DecidableEq, Repr

structure PktdropAsoc (σ : Type) where
  peersRwnd : ℕ
  totalFlight : ℕ
  /-- `sctp_sws_sender`. -/
  swsSender : ℕ
  satT3LossRecovery : Bool
  satNetwork : Bool
  /-- Calls of `sctp_cwnd_update_after_packet_dropped`. -/
  cwndUpdates : ℕ
  /-- The queues that `process_chunk_drop` works on. -/
  queues : σ

/-- The walk at a chunk: its offset in the report, `chlen`, and the description so far. -/
structure DropWalk (σ : Type) where
  ch : ℕ
  chlen : ℕ
  desc : ChunkDesc
  asoc : PktdropAsoc σ

/-- A report: its bytes and what lies behind them, and `process_chunk_drop`, whose flag says that the walk
ends. -/
structure Pktdrop (σ : Type) where
  bytes : Bytes
  processChunkDrop : PktdropAsoc σ → ChunkDesc → BitVec 8 → PktdropAsoc σ × Bool

namespace Pktdrop

def chunkLength (r : Pktdrop σ) : ℕ := r.bytes.u16 2

def chunkFlags (r : Pktdrop σ) : BitVec 8 := r.bytes.getD 1 0

/-- The argument `limit`: what the dispatcher made contiguous. -/
def limit (r : Pktdrop σ) : ℕ := min r.chunkLength chunkBufRoom

/-- `trunc_len` is not zero: the packet is not there as a whole. -/
def truncated (r : Pktdrop σ) : Bool := min (r.bytes.u16 12) r.limit != 0

def isData (r : Pktdrop σ) (w : DropWalk σ) : Bool := r.bytes.getD w.ch 0 == 0

/-- The length of the chunk that is looked at, `at` in the source. -/
def embeddedLen (r : Pktdrop σ) (w : DropWalk σ) : ℕ := r.bytes.u16 (w.ch + 2)

/-- The chunk passes the checks in front of `process_chunk_drop`. -/
def passes (r : Pktdrop σ) (w : DropWalk σ) : Bool :=
  decide (4 ≤ r.embeddedLen w) &&
    (if r.truncated then !r.isData w || decide (16 + numDbToVerify ≤ w.chlen)
     else decide (r.embeddedLen w ≤ w.chlen)) &&
    -- room for a TSN is asked for, and `data_bytes` are copied
    (!r.isData w || decide (16 + 4 ≤ w.chlen))

/-- The description that is handed on; of other chunks than DATA only the type is new. -/
def describe (r : Pktdrop σ) (w : DropWalk σ) : ChunkDesc :=
  if r.isData w then
    { chunkType := 0
      dataBytes := (List.range' (w.ch + 16) numDbToVerify).map fun o => r.bytes.getD o 0
      tsnIfany := r.bytes.u32 (w.ch + 4) }
  else { w.desc with chunkType := r.bytes.getD w.ch 0 }

def reads (r : Pktdrop σ) (w : DropWalk σ) : List ℕ :=
  List.range' w.ch 4 ++
    if r.passes w && r.isData w then
      List.range' (w.ch + 4) 4 ++ List.range' (w.ch + 16) numDbToVerify
    else []

def round (r : Pktdrop σ) (w : DropWalk σ) : PktdropAsoc σ × Option (Checked (DropWalk σ)) :=
  if r.passes w then
    let t := r.processChunkDrop w.asoc (r.describe w) r.chunkFlags
    if t.2 then (t.1, none)
    else if w.chlen < Bytes.size32 (r.embeddedLen w) then (t.1, none)
    else (t.1, some do
      let chlen ← Checked.sub 32 w.chlen (Bytes.size32 (r.embeddedLen w))
      pure
        { ch := w.ch + Bytes.size32 (r.embeddedLen w)
          chlen := chlen
          desc := r.describe w
          asoc := t.1 })
  else (w.asoc, none)

/-- The loop: what is left of the association, and the offsets of all bytes that were read. -/
def walk (r : Pktdrop σ) : ℕ → DropWalk σ → Option (Checked (PktdropAsoc σ × List ℕ))
  | 0, _ => none
  | n + 1, w =>
    if w.chlen < 4 then some (pure (w.asoc, []))
    else
      match r.round w with
      | (asoc, none) => some (pure (asoc, r.reads w))
      | (_, some next) => (walk r n next.val).map fun t =>
          { val := (t.val.1, r.reads w ++ t.val.2), ok := next.ok && t.ok }

def rwndReport (r : Pktdrop σ) (s : PktdropAsoc σ) : PktdropAsoc σ :=
  let bottleBw := r.bytes.u32 4
  let onQueue := r.bytes.u32 8
  if bottleBw ≠ 0 ∧ onQueue ≠ 0 then
    let rwnd := bottleBw - onQueue - s.totalFlight
    { s with peersRwnd := if rwnd < s.swsSender then 0 else rwnd }
  else s

def finish (r : Pktdrop σ) (s : PktdropAsoc σ) : PktdropAsoc σ :=
  if r.chunkFlags &&& fromMiddleBox = 0 then r.rwndReport s
  else if !s.satT3LossRecovery && s.satNetwork then { s with cwndUpdates := s.cwndUpdates + 1 }
  else s

/-- `chlen` behind the common header of the packet, when something is embedded. -/
def packetLen (chlen : ℕ) : Checked (Option ℕ) :=
  if chlen = 0 then pure none else some <$> Checked.sub 32 chlen 12

/-- `chlen` where the walk begins, and whether it is there: the header of the report is taken off, and the
common header of the packet. -/
def startLen (r : Pktdrop σ) : Checked (Option ℕ) :=
  Checked.sub 32 r.chunkLength pktdropChunkLen >>= packetLen

def start (s : PktdropAsoc σ) (chlen : ℕ) : DropWalk σ where
  ch := 28
  chlen := chlen
  desc := { chunkType := 0, dataBytes := List.replicate numDbToVerify 0, tsnIfany := 0 }
  asoc := s

def walkFrom (r : Pktdrop σ) (s : PktdropAsoc σ) : Option ℕ → Option (Checked (PktdropAsoc σ × List ℕ))
  | none => some (pure (s, []))
  | some chlen => r.walk (chlen + 1) (start s chlen)

/-- `sctp_handle_packet_dropped`. There is no result when the loop does not end. -/
def handlePacketDropped (r : Pktdrop σ) (s : PktdropAsoc σ) :
    Option (Checked (PktdropAsoc σ × List ℕ)) :=
  (r.walkFrom s r.startLen.val).map fun t =>
    { val := (r.finish t.val.1, List.range pktdropChunkLen ++ t.val.2)
      ok := r.startLen.ok && t.ok }

/-- The loop goes on at the second place behind the first. -/
def Next (r : Pktdrop σ) (w w' : DropWalk σ) : Prop :=
  4 ≤ w.chlen ∧ ∃ c, (r.round w).2 = some c ∧ w' = c.val

/-- A round that goes on takes a chunk off what is left, and nothing wraps. -/
theorem round_some {r : Pktdrop σ} {w : DropWalk σ} {c : Checked (DropWalk σ)}
    (hc : (r.round w).2 = some c) (hw : w.chlen < 2 ^ 32) :
    c.ok = true ∧ c.val.ch = w.ch + Bytes.size32 (r.embeddedLen w) ∧
      c.val.chlen = w.chlen - Bytes.size32 (r.embeddedLen w) ∧
      4 ≤ Bytes.size32 (r.embeddedLen w) ∧ Bytes.size32 (r.embeddedLen w) ≤ w.chlen := by
  unfold round at hc
  by_cases hp : r.passes w = true
  · rw [if_pos hp] at hc
    dsimp only at hc
    split_ifs at hc with hend hshort
    have hle : Bytes.size32 (r.embeddedLen w) ≤ w.chlen := not_lt.mp hshort
    have hfour : 4 ≤ r.embeddedLen w := by
      unfold passes at hp
      simp only [Bool.and_eq_true, decide_eq_true_eq] at hp
      exact hp.1.1
    obtain rfl := Option.some.inj hc
    have hsub := Checked.sub_val_of_le hle hw
    refine ⟨?_, rfl, hsub, hfour.trans (Bytes.le_size32 _), hle⟩
    simp [hle]
  · rw [if_neg hp] at hc
    cases hc

/-- With a word as the length that is left the loop ends. -/
theorem walk_isSome (r : Pktdrop σ) {n : ℕ} {w : DropWalk σ} (hw : w.chlen < 2 ^ 32)
    (hn : w.chlen < n) : (r.walk n w).isSome := by
  induction n generalizing w with
  | zero => omega
  | succ n ih =>
    unfold walk
    by_cases hshort : w.chlen < 4
    · rw [if_pos hshort]
      rfl
    · rw [if_neg hshort]
      cases hround : r.round w with
      | mk asoc next =>
        cases next with
        | none => rfl
        | some c =>
          have hc : (r.round w).2 = some c := by rw [hround]
          obtain ⟨_, _, hlen, hfour, hle⟩ := round_some hc hw
          rw [Option.isSome_map]
          exact ih (by omega) (by omega)

/-- What the loop reads is what is read at the places it comes to, and it does not wrap. -/
theorem walk_reads {r : Pktdrop σ} {n : ℕ} {w : DropWalk σ} (hw : w.chlen < 2 ^ 32)
    {t : Checked (PktdropAsoc σ × List ℕ)} (ht : r.walk n w = some t) :
    t.ok = true ∧ ∀ o, o ∈ t.val.2 ↔
      ∃ w', Relation.ReflTransGen r.Next w w' ∧ 4 ≤ w'.chlen ∧ o ∈ r.reads w' := by
  induction n generalizing w t with
  | zero => cases ht
  | succ n ih =>
    unfold walk at ht
    by_cases hshort : w.chlen < 4
    · rw [if_pos hshort] at ht
      obtain rfl := Option.some.inj ht
      refine ⟨rfl, fun o => ⟨fun ho => (List.not_mem_nil ho).elim, ?_⟩⟩
      rintro ⟨w', hreach, hlong, _⟩
      rcases Relation.ReflTransGen.cases_head hreach with rfl | ⟨v, hnext, _⟩
      · omega
      · have hlen := hnext.1
        omega
    · rw [if_neg hshort] at ht
      have hlong : 4 ≤ w.chlen := not_lt.mp hshort
      cases hround : r.round w with
      | mk asoc next =>
        rw [hround] at ht
        cases next with
        | none =>
          obtain rfl := Option.some.inj ht
          refine ⟨rfl, fun o => ⟨fun ho => ⟨w, .refl, hlong, ho⟩, ?_⟩⟩
          rintro ⟨w', hreach, _, ho⟩
          rcases Relation.ReflTransGen.cases_head hreach with rfl | ⟨v, ⟨_, c, hc, _⟩, _⟩
          · exact ho
          · rw [hround] at hc
            cases hc
        | some c =>
          have hc : (r.round w).2 = some c := by rw [hround]
          obtain ⟨hok, _, hlen, hfour, hle⟩ := round_some hc hw
          obtain ⟨u, hu, rfl⟩ := Option.map_eq_some_iff.mp ht
          obtain ⟨huok, hureads⟩ := ih (by omega) hu
          have hnext : r.Next w c.val := ⟨hlong, c, hc, rfl⟩
          refine ⟨by rw [hok, huok]; rfl, fun o => ?_⟩
          rw [List.mem_append, hureads o]
          constructor
          · rintro (ho | ⟨w', hreach, hlong', ho⟩)
            · exact ⟨w, .refl, hlong, ho⟩
            · exact ⟨w', .head hnext hreach, hlong', ho⟩
          · rintro ⟨w', hreach, hlong', ho⟩
            rcases Relation.ReflTransGen.cases_head hreach with rfl | ⟨v, ⟨_, c', hc', rfl⟩, hrest⟩
            · exact Or.inl ho
            · obtain rfl := Option.some.inj (hc.symm.trans hc')
              exact Or.inr ⟨w', hrest, hlong', ho⟩

/-- The loop ends, the length that is left never wraps, and every byte that is read is one of the chunk and
of what was made contiguous. -/
def StaysInside (r : Pktdrop σ) (s : PktdropAsoc σ) : Prop :=
  ∃ t, r.handlePacketDropped s = some t ∧ t.ok = true ∧
    ∀ o ∈ t.val.2, o < r.chunkLength ∧ o < r.limit

/-- The header of a chunk is inside, and so are the bytes of a DATA chunk that are copied. -/
def RoomAt (r : Pktdrop σ) (w : DropWalk σ) : Prop :=
  w.ch + 4 ≤ r.limit ∧
    (r.passes w = true → r.isData w = true → w.ch + 16 + numDbToVerify ≤ r.limit)

theorem reads_lt_iff (r : Pktdrop σ) (w : DropWalk σ) :
    (∀ o ∈ r.reads w, o < r.limit) ↔ r.RoomAt w := by
  unfold reads RoomAt numDbToVerify
  constructor
  · intro h
    constructor
    · have hlast := h (w.ch + 3) (List.mem_append_left _ (by rw [List.mem_range'_1]; omega))
      omega
    · intro hp hd
      rw [hp, hd] at h
      have hlast := h (w.ch + 46) (List.mem_append_right _
        (List.mem_append_right _ (by rw [List.mem_range'_1]; omega)))
      omega
  · rintro ⟨hhead, hdata⟩ o ho
    rcases List.mem_append.mp ho with ho | ho
    · rw [List.mem_range'_1] at ho
      omega
    · split_ifs at ho with hpd
      · obtain ⟨hp, hd⟩ := Bool.and_eq_true_iff.mp hpd
        have hroom := hdata hp hd
        rcases List.mem_append.mp ho with ho | ho
        · rw [List.mem_range'_1] at ho
          omega
        · rw [List.mem_range'_1] at ho
          omega
      · cases ho

theorem chunkLength_lt (r : Pktdrop σ) : r.chunkLength < 65536 := by
  have hhi := (r.bytes.getD 2 0).isLt
  have hlo := (r.bytes.getD 3 0).isLt
  unfold chunkLength Bytes.u16
  omega

theorem packetLen_val {n : ℕ} (hn : n ≠ 0) : (packetLen n).val = some (Checked.sub 32 n 12).val := by
  unfold packetLen
  rw [if_neg hn, Checked.map_val]

theorem packetLen_ok {n : ℕ} (hn : n ≠ 0) : (packetLen n).ok = true ↔ 12 ≤ n := by
  unfold packetLen
  rw [if_neg hn, Checked.map_ok, Checked.sub_ok]

theorem startLen_val (r : Pktdrop σ) (hlen : pktdropChunkLen ≤ r.chunkLength) :
    r.startLen.val = (packetLen (r.chunkLength - pktdropChunkLen)).val := by
  have hlt := r.chunkLength_lt
  unfold startLen
  rw [Checked.bind_val, Checked.sub_val_of_le hlen (by omega)]

theorem startLen_ok (r : Pktdrop σ) (hlen : pktdropChunkLen ≤ r.chunkLength) :
    r.startLen.ok = (packetLen (r.chunkLength - pktdropChunkLen)).ok := by
  have hlt := r.chunkLength_lt
  have hfirst : (Checked.sub 32 r.chunkLength pktdropChunkLen).ok = true :=
    (Checked.sub_ok _ _ _).mpr hlen
  unfold startLen
  rw [Checked.bind_ok, hfirst, Bool.true_and, Checked.sub_val_of_le hlen (by omega)]

theorem startLen_of_eq {r : Pktdrop σ} (hlen : r.chunkLength = 16) :
    r.startLen.val = none ∧ r.startLen.ok = true := by
  have hle : pktdropChunkLen ≤ r.chunkLength := hlen.ge
  have hzero : r.chunkLength - pktdropChunkLen = 0 := by rw [hlen, pktdropChunkLen]
  rw [startLen_val r hle, startLen_ok r hle, hzero]
  exact ⟨rfl, rfl⟩

/-- Something is embedded: the length that is left wraps when it is less than a common header. -/
theorem startLen_of_lt {r : Pktdrop σ} (hlen : 16 < r.chunkLength) :
    (28 ≤ r.chunkLength → r.startLen.val = some (r.chunkLength - 28)) ∧
      (r.startLen.ok = true ↔ 28 ≤ r.chunkLength) := by
  have hle : pktdropChunkLen ≤ r.chunkLength := hlen.le
  have hlt := r.chunkLength_lt
  have hne : r.chunkLength - pktdropChunkLen ≠ 0 := by
    unfold pktdropChunkLen
    omega
  rw [startLen_val r hle, startLen_ok r hle, packetLen_val hne, packetLen_ok hne]
  unfold pktdropChunkLen
  constructor
  · intro hroom
    have hsecond : (Checked.sub 32 (r.chunkLength - 16) 12).val = r.chunkLength - 16 - 12 := by
      apply Checked.sub_val_of_le
      · omega
      · omega
    rw [hsecond, Nat.sub_sub]
  · omega

theorem mem_header_lt {r : Pktdrop σ} (hlen : pktdropChunkLen ≤ r.chunkLength) :
    ∀ o ∈ List.range pktdropChunkLen, o < r.limit := by
  intro o ho
  rw [List.mem_range] at ho
  unfold limit chunkBufRoom
  unfold pktdropChunkLen at *
  omega

/-- The bytes that a walk from a place on reads are inside if there is room wherever it comes to. -/
theorem walked_lt_iff {r : Pktdrop σ} {w : DropWalk σ} {l : List ℕ}
    (hl : ∀ o, o ∈ l ↔ ∃ w', Relation.ReflTransGen r.Next w w' ∧ 4 ≤ w'.chlen ∧ o ∈ r.reads w') :
    (∀ o ∈ l, o < r.limit) ↔
      ∀ w', Relation.ReflTransGen r.Next w w' → 4 ≤ w'.chlen → r.RoomAt w' := by
  constructor
  · intro h w' hreach hlong
    rw [← reads_lt_iff]
    intro o ho
    exact h o ((hl o).mpr ⟨w', hreach, hlong, ho⟩)
  · intro h o ho
    obtain ⟨w', hreach, hlong, ho⟩ := (hl o).mp ho
    exact (r.reads_lt_iff w').mpr (h w' hreach hlong) o ho

theorem handlePacketDropped_of_some {r : Pktdrop σ} (s : PktdropAsoc σ) {chlen : ℕ}
    (hlen : pktdropChunkLen ≤ r.chunkLength) (hword : chlen < 2 ^ 32)
    (hval : r.startLen.val = some chlen) (hok : r.startLen.ok = true) :
    ∃ t, r.handlePacketDropped s = some t ∧ t.ok = true ∧
      ((∀ o ∈ t.val.2, o < r.limit) ↔
        ∀ w, Relation.ReflTransGen r.Next (start s chlen) w → 4 ≤ w.chlen → r.RoomAt w) := by
  have hstart : (start s chlen).chlen < 2 ^ 32 := hword
  have hsome : (r.walk (chlen + 1) (start s chlen)).isSome :=
    walk_isSome r hstart (Nat.lt_succ_self chlen)
  obtain ⟨u, hu⟩ := Option.isSome_iff_exists.mp hsome
  obtain ⟨huok, hureads⟩ := walk_reads hstart hu
  have hhead := mem_header_lt hlen
  have hfrom : r.walkFrom s (some chlen) = some u := hu
  unfold handlePacketDropped
  rw [hval, hfrom]
  refine ⟨_, rfl, ?_, ?_⟩
  · exact Bool.and_eq_true_iff.mpr ⟨hok, huok⟩
  · rw [← walked_lt_iff hureads]
    constructor
    · intro h o ho
      exact h o (List.mem_append_right _ ho)
    · intro h o ho
      rcases List.mem_append.mp ho with ho | ho
      · exact hhead o ho
      · exact h o ho

/-- The reads stay inside if nothing or a whole common header is embedded and there is room wherever the loop
comes to, and only then. -/
theorem staysInside_iff_next (r : Pktdrop σ) (s : PktdropAsoc σ) (hlen : pktdropChunkLen ≤ r.chunkLength) :
    r.StaysInside s ↔ r.chunkLength = 16 ∨ (28 ≤ r.chunkLength ∧
      ∀ w, Relation.ReflTransGen r.Next (start s (r.chunkLength - 28)) w → 4 ≤ w.chlen →
        r.RoomAt w) := by
  have hlimit : ∀ o, o < r.limit → o < r.chunkLength := fun o ho =>
    ho.trans_le (min_le_left _ _)
  rcases Nat.eq_or_lt_of_le hlen with heq | hlt
  · obtain ⟨hval, hok⟩ := startLen_of_eq heq.symm
    refine iff_of_true ?_ (Or.inl heq.symm)
    have hfrom : r.walkFrom s none = some (pure (s, [])) := rfl
    unfold StaysInside handlePacketDropped
    rw [hval, hfrom]
    refine ⟨_, rfl, ?_, fun o ho => ?_⟩
    · exact Bool.and_eq_true_iff.mpr ⟨hok, rfl⟩
    · rcases List.mem_append.mp ho with ho | ho
      · have hin := mem_header_lt hlen o ho
        exact ⟨hlimit o hin, hin⟩
      · exact (List.not_mem_nil ho).elim
  · have hne : r.chunkLength ≠ 16 := Nat.ne_of_gt hlt
    by_cases hroom : 28 ≤ r.chunkLength
    · obtain ⟨hval, hdef⟩ := startLen_of_lt hlt
      have hword : r.chunkLength - 28 < 2 ^ 32 := by
        have hsmall := r.chunkLength_lt
        omega
      obtain ⟨t, ht, hok, hreads⟩ :=
        handlePacketDropped_of_some s hlen hword (hval hroom) (hdef.mpr hroom)
      constructor
      · rintro ⟨t', ht', _, hinside⟩
        obtain rfl := Option.some.inj (ht.symm.trans ht')
        exact Or.inr ⟨hroom, hreads.mp fun o ho => (hinside o ho).2⟩
      · rintro (heq | ⟨_, hwalk⟩)
        · exact absurd heq hne
        · refine ⟨t, ht, hok, fun o ho => ?_⟩
          have hin := hreads.mpr hwalk o ho
          exact ⟨hlimit o hin, hin⟩
    · refine iff_of_false ?_ (by omega)
      rintro ⟨t, ht, hok, _⟩
      have hnot : r.startLen.ok = false := by
        rw [← Bool.not_eq_true, (startLen_of_lt hlt).2]
        exact hroom
      unfold handlePacketDropped at ht
      obtain ⟨u, _, rfl⟩ := Option.map_eq_some_iff.mp ht
      rw [hnot, Bool.false_and] at hok
      cases hok

/-- The chunk at an offset of the report is not thrown away for its length: it has a header, it ends within the
report if that has the whole packet, and there is room for what is known of a DATA chunk. -/
structure Handed (r : Pktdrop σ) (o : ℕ) : Prop where
  header : 4 ≤ r.bytes.u16 (o + 2)
  whole : r.truncated = false → o + r.bytes.u16 (o + 2) ≤ r.chunkLength
  copied : r.truncated = true → r.bytes.getD o 0 = 0 → o + 16 + numDbToVerify ≤ r.chunkLength
  tsn : r.bytes.getD o 0 = 0 → o + 16 + 4 ≤ r.chunkLength

/-- The description of the chunk at an offset, when that of the chunk before it is known. -/
def descAt (r : Pktdrop σ) (o : ℕ) (desc : ChunkDesc) : ChunkDesc :=
  if r.bytes.getD o 0 = 0 then
    { chunkType := 0
      dataBytes := (List.range' (o + 16) numDbToVerify).map fun i => r.bytes.getD i 0
      tsnIfany := r.bytes.u32 (o + 4) }
  else { desc with chunkType := r.bytes.getD o 0 }

/-- The offsets of the embedded chunks one behind the other, with the description of the chunk before and the
association as it is then. The next chunk is one behind a chunk that is not thrown away, that
`process_chunk_drop` goes on after and whose padding is there too. -/
inductive Embedded (r : Pktdrop σ) (s : PktdropAsoc σ) : ℕ → ChunkDesc → PktdropAsoc σ → Prop
  | first : Embedded r s 28 { chunkType := 0, dataBytes := List.replicate numDbToVerify 0, tsnIfany := 0 } s
  | next {o : ℕ} {desc : ChunkDesc} {asoc : PktdropAsoc σ} (before : Embedded r s o desc asoc)
      (header : o + 4 ≤ r.chunkLength) (handed : r.Handed o)
      (goesOn : (r.processChunkDrop asoc (r.descAt o desc) r.chunkFlags).2 = false)
      (padded : o + Bytes.size32 (r.bytes.u16 (o + 2)) ≤ r.chunkLength) :
      Embedded r s (o + Bytes.size32 (r.bytes.u16 (o + 2))) (r.descAt o desc)
        (r.processChunkDrop asoc (r.descAt o desc) r.chunkFlags).1

/-- At every embedded chunk the header is inside of what was made contiguous, and so are the bytes of a DATA
chunk that are copied. -/
def Roomy (r : Pktdrop σ) (s : PktdropAsoc σ) : Prop :=
  ∀ o desc asoc, r.Embedded s o desc asoc → o + 4 ≤ r.chunkLength →
    o + 4 ≤ r.limit ∧ (r.Handed o → r.bytes.getD o 0 = 0 → o + 16 + numDbToVerify ≤ r.limit)

section

variable {r : Pktdrop σ} {s : PktdropAsoc σ} {w w' : DropWalk σ}

theorem isData_iff : r.isData w = true ↔ r.bytes.getD w.ch 0 = 0 := beq_iff_eq

theorem passes_iff (hw : w.ch + w.chlen = r.chunkLength) : r.passes w = true ↔ r.Handed w.ch := by
  have hdata : ∀ n, (!r.isData w || decide (n ≤ w.chlen)) = true ↔
      (r.bytes.getD w.ch 0 = 0 → w.ch + n ≤ r.chunkLength) := by
    intro n
    rw [Bool.or_eq_true, Bool.not_eq_true', ← Bool.not_eq_true, isData_iff, decide_eq_true_iff,
      ← imp_iff_not_or]
    exact imp_congr_right fun _ => by omega
  unfold passes embeddedLen
  rw [Bool.and_eq_true, Bool.and_eq_true, hdata, decide_eq_true_iff]
  cases htrunc : r.truncated with
  | true =>
    rw [if_pos rfl, hdata]
    constructor
    · rintro ⟨⟨hfour, hcopied⟩, htsn⟩
      refine ⟨hfour, fun h => ?_, fun _ => hcopied, htsn⟩
      rw [htrunc] at h
      cases h
    · intro h
      exact ⟨⟨h.header, h.copied htrunc⟩, h.tsn⟩
  | false =>
    rw [if_neg Bool.false_ne_true, decide_eq_true_iff]
    constructor
    · rintro ⟨⟨hfour, hwhole⟩, htsn⟩
      refine ⟨hfour, fun _ => by omega, fun h => ?_, htsn⟩
      rw [htrunc] at h
      cases h
    · intro h
      have hwhole := h.whole htrunc
      exact ⟨⟨h.header, by omega⟩, h.tsn⟩

theorem describe_eq (r : Pktdrop σ) (w : DropWalk σ) : r.describe w = r.descAt w.ch w.desc := by
  unfold describe descAt
  exact if_congr isData_iff rfl rfl

/-- The loop goes on behind a chunk that is not thrown away, whose padding is there. -/
theorem next_iff (hw : w.ch + w.chlen = r.chunkLength) :
    r.Next w w' ↔ w.ch + 4 ≤ r.chunkLength ∧ r.Handed w.ch ∧
      (r.processChunkDrop w.asoc (r.descAt w.ch w.desc) r.chunkFlags).2 = false ∧
      w.ch + Bytes.size32 (r.bytes.u16 (w.ch + 2)) ≤ r.chunkLength ∧
      w' = { ch := w.ch + Bytes.size32 (r.bytes.u16 (w.ch + 2))
             chlen := r.chunkLength - (w.ch + Bytes.size32 (r.bytes.u16 (w.ch + 2)))
             desc := r.descAt w.ch w.desc
             asoc := (r.processChunkDrop w.asoc (r.descAt w.ch w.desc) r.chunkFlags).1 } := by
  have hlt := r.chunkLength_lt
  have hfour : 4 ≤ w.chlen ↔ w.ch + 4 ≤ r.chunkLength := by omega
  have hpadded : ¬ w.chlen < Bytes.size32 (r.embeddedLen w) ↔
      w.ch + Bytes.size32 (r.bytes.u16 (w.ch + 2)) ≤ r.chunkLength := by
    unfold embeddedLen
    omega
  have hleft : Bytes.size32 (r.embeddedLen w) ≤ w.chlen →
      (Checked.sub 32 w.chlen (Bytes.size32 (r.embeddedLen w))).val =
        r.chunkLength - (w.ch + Bytes.size32 (r.bytes.u16 (w.ch + 2))) := by
    intro hle
    rw [Checked.sub_val_of_le hle (by omega)]
    unfold embeddedLen
    omega
  unfold Next round
  rw [hfour, describe_eq]
  apply and_congr_right
  intro _
  by_cases hp : r.passes w = true
  · have hhanded := (passes_iff hw).1 hp
    rw [if_pos hp]
    dsimp only
    cases hflag : (r.processChunkDrop w.asoc (r.descAt w.ch w.desc) r.chunkFlags).2 with
    | true =>
      rw [if_pos rfl]
      simp
    | false =>
      rw [if_neg Bool.false_ne_true]
      by_cases hshort : w.chlen < Bytes.size32 (r.embeddedLen w)
      · rw [if_pos hshort, ← hpadded]
        simp [hshort]
      · rw [if_neg hshort]
        have hval := hleft (not_lt.1 hshort)
        constructor
        · rintro ⟨c, hc, rfl⟩
          obtain rfl := Option.some.inj hc
          refine ⟨hhanded, rfl, hpadded.1 hshort, ?_⟩
          rw [← hval]
          rfl
        · rintro ⟨-, -, -, rfl⟩
          refine ⟨_, rfl, ?_⟩
          rw [← hval]
          rfl
  · have hhanded : ¬ r.Handed w.ch := fun h => hp ((passes_iff hw).2 h)
    rw [if_neg hp]
    simp [hhanded]

/-- The loop comes to the embedded chunks. -/
theorem reached_iff (hlen : 28 ≤ r.chunkLength) :
    Relation.ReflTransGen r.Next (start s (r.chunkLength - 28)) w ↔
      w.ch + w.chlen = r.chunkLength ∧ r.Embedded s w.ch w.desc w.asoc := by
  constructor
  · intro h
    induction h with
    | refl => exact ⟨Nat.add_sub_cancel' hlen, .first⟩
    | tail _ hnext ih =>
      obtain ⟨hheader, hhanded, hgoes, hpadded, rfl⟩ := (next_iff ih.1).1 hnext
      exact ⟨Nat.add_sub_cancel' hpadded, ih.2.next hheader hhanded hgoes hpadded⟩
  · rintro ⟨hw, hembedded⟩
    have hreach : ∀ o desc asoc, r.Embedded s o desc asoc → o ≤ r.chunkLength ∧
        Relation.ReflTransGen r.Next (start s (r.chunkLength - 28)) ⟨o, r.chunkLength - o, desc, asoc⟩ := by
      intro o desc asoc h
      induction h with
      | first => exact ⟨hlen, .refl⟩
      | next _ hheader hhanded hgoes hpadded ih =>
        refine ⟨hpadded, ih.2.tail ?_⟩
        exact (next_iff (Nat.add_sub_cancel' ih.1)).2 ⟨hheader, hhanded, hgoes, hpadded, rfl⟩
    have hend := (hreach _ _ _ hembedded).2
    have hleft : r.chunkLength - w.ch = w.chlen := by omega
    rw [hleft] at hend
    exact hend

end

/-- The reads of a report stay inside if nothing or a whole common header is embedded and there is room at
every embedded chunk that is come to, and only then. -/
theorem staysInside_iff (r : Pktdrop σ) (s : PktdropAsoc σ) (hlen : pktdropChunkLen ≤ r.chunkLength) :
    r.StaysInside s ↔ r.chunkLength = 16 ∨ (28 ≤ r.chunkLength ∧ r.Roomy s) := by
  rw [staysInside_iff_next r s hlen]
  apply or_congr_right
  apply and_congr_right
  intro hroom
  constructor
  · intro h o desc asoc hembedded hheader
    have hw : o + (r.chunkLength - o) = r.chunkLength := by omega
    obtain ⟨hhead, hdata⟩ := h ⟨o, r.chunkLength - o, desc, asoc⟩ ((reached_iff hroom).2 ⟨hw, hembedded⟩)
      (show 4 ≤ r.chunkLength - o by omega)
    exact ⟨hhead, fun hhanded htype => hdata ((passes_iff hw).2 hhanded) (isData_iff.2 htype)⟩
  · intro h w hreach hlong
    obtain ⟨hw, hembedded⟩ := (reached_iff hroom).1 hreach
    obtain ⟨hhead, hdata⟩ := h _ _ _ hembedded (by omega)
    exact ⟨hhead, fun hpasses htype => hdata ((passes_iff hw).1 hpasses) (isData_iff.1 htype)⟩

def quietAsoc : PktdropAsoc Unit where
  peersRwnd := 1500
  totalFlight := 0
  swsSender := 0
  satT3LossRecovery := false
  satNetwork := false
  cwndUpdates := 0
  queues := ()

/-- A report of a packet with one DATA chunk of a length, none of whose chunks ends the walk. -/
def dataReport (chunkLen dataLen : BitVec 8) : Pktdrop Unit where
  bytes := [0x81, 0, 0, chunkLen, 0, 0, 0, 0, 0, 0, 0, 0, 0, 0, 0, 0] ++ List.replicate 12 0 ++
    [0, 3, 0, dataLen, 0, 0, 0, 7]
  processChunkDrop s _ _ := (s, false)

/-- 32 bytes of user data are enough for the bytes that are copied. -/
theorem dataReport_staysInside : pktdropChunkLen ≤ (dataReport 76 48).chunkLength ∧
    (dataReport 76 48).StaysInside quietAsoc := by
  have hlen : pktdropChunkLen ≤ (dataReport 76 48).chunkLength := by decide
  refine ⟨hlen, (staysInside_iff (dataReport 76 48) quietAsoc hlen).mpr (Or.inr ⟨by decide, ?_⟩)⟩
  intro o desc asoc hembedded hheader
  have hreport : (dataReport 76 48).chunkLength = 76 := by decide
  rw [hreport] at hheader
  have hplaces : o = 28 ∨ 76 ≤ o := by
    induction hembedded with
    | first => exact Or.inl rfl
    | next before _ _ _ _ ih =>
      right
      obtain rfl | hle := ih (by omega)
      · decide
      · omega
  obtain rfl : o = 28 := by omega
  constructor
  · decide
  · intro _ _
    decide

/-- With 4 bytes of user data at the end of the chunk, bytes behind the chunk are copied. -/
theorem shortData_not_staysInside : pktdropChunkLen ≤ (dataReport 48 20).chunkLength ∧
    ¬ (dataReport 48 20).StaysInside quietAsoc := by
  have hreads : ((dataReport 48 20).handlePacketDropped quietAsoc).any
      (fun t => t.val.2.contains 74) = true := by
    decide +kernel
  constructor
  · decide
  · rintro ⟨t, ht, _, hinside⟩
    rw [ht] at hreads
    have hmem : 74 ∈ t.val.2 := List.contains_iff_mem.mp hreads
    have hlt := (hinside 74 hmem).1
    revert hlt
    decide

end Pktdrop

end Sctp
