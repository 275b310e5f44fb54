import Mathlib.Logic.Relation
import Sctp.Lib.Bytes

/-! The loop of `sctp_process_data` over the chunks behind the first DATA chunk of a packet. -/
namespace Sctp.DataRegion
open Bytes

structure ChunkHeader where
  chunkType : BitVec 8
  chunkLength : ℕ
deriving DecidableEq, Repr

/-- `sctp_m_getptr` for the header of a DATA chunk, all of which has to be there. -/
def chunkAt (pkt : Bytes) (offset : ℕ) : Option ChunkHeader :=
  if pkt.length < offset + 16 then none else some ⟨pkt.getD offset 0, pkt.u16 (offset + 2)⟩

/-- What the loop tells apart by the type of a chunk. -/
inductive ChunkKind where
  /-- DATA or I-DATA, with the size of its header. -/
  | data (clen : ℕ)
  /-- A chunk that does not belong into the data region. -/
  | control
  | unknown
deriving DecidableEq, Repr

def controlTypes : List (BitVec 8) :=
  [0x01, 0x02, 0x03, 0x10, 0x04, 0x05, 0x06, 0x07, 0x08, 0x09, 0x0a, 0x0b, 0x0c, 0x0d, 0x0e, 0x0f,
    0x80, 0x81, 0x82, 0xc0, 0xc1]

namespace ChunkHeader

def kind (ch : ChunkHeader) : ChunkKind :=
  if ch.chunkType = 0x00 then .data 16
  else if ch.chunkType = 0x11 then .data 24
  else if ch.chunkType ∈ controlTypes then .control
  else .unknown

/-- The two high bits of an unknown type: report it, and skip it. -/
def reported (ch : ChunkHeader) : Bool := ch.chunkType &&& 0x40 != 0
def skipped (ch : ChunkHeader) : Bool := ch.chunkType &&& 0x80 != 0

end ChunkHeader

/-- What `sctp_process_a_data_chunk` says about a chunk. -/
structure DataOutcome where
  counted : Bool
  abortFlag : Bool
  breakFlag : Bool
deriving DecidableEq, Repr

/-- What the loop relies on: the processing of a data chunk on the state `σ` of the association, the
setting `sctp_strict_data_order`, and the error causes that cannot be built, by their offset. -/
structure DataEnv (σ : Type) where
  processADataChunk : σ → ℕ → ChunkHeader → Bool → σ × DataOutcome
  strictDataOrder : Bool
  opErrFails : ℕ → Bool

structure DataLoop (σ : Type) where
  state : σ
  offset : ℕ
  ch : ChunkHeader
  numChunks : ℕ
  /-- Offset and length of the chunks reported as not recognized. -/
  opErrs : List (ℕ × ℕ)
  breakFlag : Bool

inductive LoopTurn (σ : Type) where
  | again (l : DataLoop σ)
  | leave (l : DataLoop σ)
  | aborted (l : DataLoop σ)

section Loop

variable {σ : Type} (env : DataEnv σ) (pkt : Bytes)

/-- The end of the loop body: on to the next chunk. -/
def advance (l : DataLoop σ) (stopProc : Bool) : LoopTurn σ :=
  let l := { l with offset := l.offset + size32 l.ch.chunkLength }
  if pkt.length ≤ l.offset ∨ stopProc then .leave l
  else
    match chunkAt pkt l.offset with
    | none => .leave { l with offset := pkt.length }
    | some ch => .again { l with ch }

/-- A chunk of an unknown type is reported, if it asks for that. -/
def report (l : DataLoop σ) : DataLoop σ :=
  if l.ch.reported ∧ l.ch.chunkLength ≠ 0 ∧ env.opErrFails l.offset = false then
    { l with opErrs := l.opErrs ++ [(l.offset, l.ch.chunkLength)] }
  else l

def dataStep (l : DataLoop σ) : LoopTurn σ :=
  if pkt.length - l.offset < l.ch.chunkLength then .leave l
  else
    match l.ch.kind with
    | .data clen =>
      if l.ch.chunkLength ≤ clen then .aborted l
      else
        let lastChunk := size32 l.ch.chunkLength == pkt.length - l.offset
        let r := env.processADataChunk l.state l.offset l.ch lastChunk
        let l :=
          { l with
            state := r.1
            numChunks := if r.2.counted then l.numChunks + 1 else l.numChunks
            breakFlag := r.2.breakFlag }
        if r.2.abortFlag then .aborted l
        else if r.2.breakFlag then .leave l
        else advance pkt l false
    | .control => if env.strictDataOrder then .aborted l else advance pkt l false
    | .unknown => advance pkt (report env l) (!l.ch.skipped)

/-- Nothing comes back from a loop that still runs when the fuel is used up. -/
def dataLoop : ℕ → DataLoop σ → Option (ℕ × DataLoop σ)
  | 0, _ => none
  | fuel + 1, l =>
    match dataStep env pkt l with
    | .again l => dataLoop fuel l
    | .leave l => some (0, l)
    | .aborted l => some (2, l)

def start (s : σ) (offset : ℕ) (ch : ChunkHeader) : DataLoop σ :=
  { state := s, offset, ch, numChunks := 0, opErrs := [], breakFlag := false }

/-- `sctp_process_data` on the data region of `pkt`, with the value it returns. -/
def processData (fuel : ℕ) (s : σ) (offset : ℕ) : Option (ℕ × Option (DataLoop σ)) :=
  match chunkAt pkt offset with
  | none => some (1, none)
  | some ch => (dataLoop env pkt fuel (start s offset ch)).map fun r => (r.1, some r.2)

/-- The loop comes to `l` from the beginning of the data region. -/
def ComesTo (s : σ) (offset : ℕ) (l : DataLoop σ) : Prop :=
  ∃ ch, chunkAt pkt offset = some ch ∧
    Relation.ReflTransGen (fun l l' => dataStep env pkt l = .again l') (start s offset ch) l

end Loop

/-- Each time that does not leave the loop consumes bytes, and there are at most as many times as there
are words in the packet, whatever becomes of the data chunks. -/
def Consumes (strict : Bool) (pkt : Bytes) (offset : ℕ) : Prop :=
  ∀ (σ : Type) (env : DataEnv σ) (s : σ), env.strictDataOrder = strict →
    (∀ l l', ComesTo env pkt s offset l → dataStep env pkt l = .again l' → l.offset < l'.offset) ∧
      ∃ r, processData env pkt (pkt.length / 4) s offset = some r

/-- A chunk that the loop passes over when its processing does not end it. -/
def ChunkHeader.Passed (strict : Bool) (ch : ChunkHeader) : Prop :=
  match ch.kind with
  | .data clen => clen < ch.chunkLength
  | .control => strict = false
  | .unknown => ch.skipped = true

inductive ChunkOffset (strict : Bool) (pkt : Bytes) (first : ℕ) : ℕ → Prop
  | first : ChunkOffset strict pkt first first
  | next {offset : ℕ} {ch : ChunkHeader} (h : ChunkOffset strict pkt first offset)
      (hch : chunkAt pkt offset = some ch) (hfits : offset + ch.chunkLength ≤ pkt.length)
      (hpassed : ch.Passed strict) (hmore : offset + size32 ch.chunkLength < pkt.length) :
      ChunkOffset strict pkt first (offset + size32 ch.chunkLength)

/-- No chunk of the data region that is passed over has the length zero. -/
def NoEmptyChunk (strict : Bool) (pkt : Bytes) (first : ℕ) : Prop :=
  ∀ offset ch, ChunkOffset strict pkt first offset → chunkAt pkt offset = some ch →
    ch.Passed strict → ch.chunkLength ≠ 0

section Proofs

variable {σ : Type} {env : DataEnv σ} {pkt : Bytes} {l l' : DataLoop σ}

theorem chunkAt_le {offset : ℕ} {ch : ChunkHeader} (h : chunkAt pkt offset = some ch) :
    offset + 16 ≤ pkt.length := by
  unfold chunkAt at h
  split at h
  · cases h
  · omega

theorem advance_again {stopProc : Bool} (h : advance pkt l stopProc = .again l') :
    stopProc = false ∧ l'.offset = l.offset + size32 l.ch.chunkLength ∧
      l'.offset < pkt.length ∧ chunkAt pkt l'.offset = some l'.ch := by
  unfold advance at h
  dsimp only at h
  split at h
  · cases h
  · rename_i hmore
    obtain ⟨hless, hstop⟩ := not_or.1 hmore
    split at h
    · cases h
    · rename_i ch hch
      cases h
      exact ⟨Bool.eq_false_of_not_eq_true hstop, rfl, Nat.lt_of_not_le hless, hch⟩

theorem report_eq (env : DataEnv σ) (l : DataLoop σ) :
    (report env l).offset = l.offset ∧ (report env l).ch = l.ch := by
  unfold report
  split <;> exact ⟨rfl, rfl⟩

/-- What a time round the loop that goes on has seen. -/
theorem dataStep_again (h : dataStep env pkt l = .again l') :
    l.ch.chunkLength ≤ pkt.length - l.offset ∧ l.ch.Passed env.strictDataOrder ∧
      l'.offset = l.offset + size32 l.ch.chunkLength ∧ l'.offset < pkt.length ∧
      chunkAt pkt l'.offset = some l'.ch := by
  unfold dataStep at h
  split at h
  · cases h
  · rename_i hfits
    refine ⟨Nat.le_of_not_lt hfits, ?_⟩
    unfold ChunkHeader.Passed
    split at h
    · rename_i clen hkind
      split at h
      · cases h
      · rename_i hlen
        dsimp only at h
        split at h
        · cases h
        · split at h
          · cases h
          · exact ⟨Nat.lt_of_not_le hlen, (advance_again h).2⟩
    · rename_i hkind
      split at h
      · cases h
      · rename_i hstrict
        exact ⟨Bool.eq_false_of_not_eq_true hstrict, (advance_again h).2⟩
    · rename_i hkind
      obtain ⟨hstop, hoffset, hless, hch⟩ := advance_again h
      rw [(report_eq env l).1, (report_eq env l).2] at hoffset
      exact ⟨by simpa using hstop, hoffset, hless, hch⟩

/-- The loop stands at a chunk of the region. -/
theorem ComesTo.chunkOffset {s : σ} {first : ℕ} (h : ComesTo env pkt s first l) :
    ChunkOffset env.strictDataOrder pkt first l.offset ∧ chunkAt pkt l.offset = some l.ch := by
  obtain ⟨ch, hch, hreach⟩ := h
  induction hreach with
  | refl => exact ⟨.first, hch⟩
  | tail _ hstep ih =>
    obtain ⟨hfits, hpassed, hoffset, hless, hnext⟩ := dataStep_again hstep
    have hin := chunkAt_le ih.2
    refine ⟨?_, hnext⟩
    rw [hoffset] at hless ⊢
    exact .next ih.1 ih.2 (by omega) hpassed hless

theorem ComesTo.lt_of_again {s : σ} {first : ℕ} (h : ComesTo env pkt s first l)
    (hnone : NoEmptyChunk env.strictDataOrder pkt first) (hstep : dataStep env pkt l = .again l') :
    l.offset + 4 ≤ l'.offset := by
  obtain ⟨hat, hch⟩ := h.chunkOffset
  obtain ⟨-, hpassed, hoffset, -⟩ := dataStep_again hstep
  have hlen : 0 < l.ch.chunkLength := Nat.pos_of_ne_zero (hnone l.offset l.ch hat hch hpassed)
  have hfour := four_le_size32 hlen
  omega

theorem ComesTo.step {s : σ} {first : ℕ} (h : ComesTo env pkt s first l)
    (hstep : dataStep env pkt l = .again l') : ComesTo env pkt s first l' := by
  obtain ⟨ch, hch, hreach⟩ := h
  exact ⟨ch, hch, hreach.tail hstep⟩

/-- Each time round uses one unit of fuel and four bytes, and needs sixteen. -/
theorem exists_dataLoop {s : σ} {first : ℕ} (hnone : NoEmptyChunk env.strictDataOrder pkt first)
    {fuel : ℕ} (h : ComesTo env pkt s first l) (hfuel : pkt.length ≤ l.offset + 4 * fuel + 3) :
    ∃ r, dataLoop env pkt fuel l = some r := by
  induction fuel generalizing l with
  | zero =>
    have hin := chunkAt_le h.chunkOffset.2
    omega
  | succ fuel ih =>
    rw [dataLoop]
    cases hstep : dataStep env pkt l with
    | again l' =>
      have hfour := h.lt_of_again hnone hstep
      exact ih (h.step hstep) (by omega)
    | leave l' => exact ⟨_, rfl⟩
    | aborted l' => exact ⟨_, rfl⟩

theorem consumes_of_noEmptyChunk {strict : Bool} {first : ℕ}
    (h : NoEmptyChunk strict pkt first) : Consumes strict pkt first := by
  rintro σ env s rfl
  refine ⟨fun l l' hl hstep => ?_, ?_⟩
  · have hfour := hl.lt_of_again h hstep
    omega
  · unfold processData
    cases hch : chunkAt pkt first with
    | none => exact ⟨_, rfl⟩
    | some ch =>
      have hstart : ComesTo env pkt s first (start s first ch) := ⟨ch, hch, .refl⟩
      have hfuel : pkt.length ≤ (start s first ch).offset + 4 * (pkt.length / 4) + 3 := by omega
      obtain ⟨r, hr⟩ := exists_dataLoop h hstart hfuel
      refine ⟨(r.1, some r.2), ?_⟩
      dsimp only
      rw [hr]
      rfl

def takeAll (strict : Bool) : DataEnv Unit where
  processADataChunk _ _ _ _ := ((), { counted := true, abortFlag := false, breakFlag := false })
  strictDataOrder := strict
  opErrFails _ := false

theorem advance_eq (h : l.offset + size32 l.ch.chunkLength < pkt.length) {ch : ChunkHeader}
    (hch : chunkAt pkt (l.offset + size32 l.ch.chunkLength) = some ch) :
    ∃ l', advance pkt l false = .again l' ∧ l'.offset = l.offset + size32 l.ch.chunkLength ∧
      l'.ch = ch := by
  refine ⟨{ l with offset := l.offset + size32 l.ch.chunkLength, ch }, ?_, rfl, rfl⟩
  unfold advance
  dsimp only
  rw [if_neg (by simpa using h)]
  simp only [hch]

/-- The loop goes on behind every chunk that is passed over. -/
theorem dataStep_takeAll {strict : Bool} {l : DataLoop Unit}
    (hfits : l.offset + l.ch.chunkLength ≤ pkt.length) (hpassed : l.ch.Passed strict)
    (hmore : l.offset + size32 l.ch.chunkLength < pkt.length) {ch : ChunkHeader}
    (hch : chunkAt pkt (l.offset + size32 l.ch.chunkLength) = some ch) :
    ∃ l', dataStep (takeAll strict) pkt l = .again l' ∧
      l'.offset = l.offset + size32 l.ch.chunkLength ∧ l'.ch = ch := by
  have hfits : ¬ pkt.length - l.offset < l.ch.chunkLength := by omega
  unfold dataStep
  rw [if_neg hfits]
  unfold ChunkHeader.Passed at hpassed
  split at hpassed
  · rename_i clen hkind
    simp only [if_neg (Nat.not_le.2 hpassed)]
    exact advance_eq (l := { l with state := (), numChunks := l.numChunks + 1, breakFlag := false })
      hmore hch
  · rename_i hkind
    have hstrict : ¬ (takeAll strict).strictDataOrder = true := by
      rw [show (takeAll strict).strictDataOrder = strict from rfl, hpassed]
      exact Bool.false_ne_true
    simp only [if_neg hstrict]
    exact advance_eq hmore hch
  · rename_i hkind
    obtain ⟨hoffset, hheader⟩ := report_eq (takeAll strict) l
    simp only [hpassed, Bool.not_true]
    rw [← hoffset, ← hheader] at hmore hch ⊢
    exact advance_eq hmore hch

theorem exists_comesTo {strict : Bool} {first offset : ℕ} {ch : ChunkHeader}
    (h : ChunkOffset strict pkt first offset) (hch : chunkAt pkt offset = some ch) :
    ∃ l, ComesTo (takeAll strict) pkt () first l ∧ l.offset = offset ∧ l.ch = ch := by
  induction h generalizing ch with
  | first => exact ⟨start () first ch, ⟨ch, hch, .refl⟩, rfl, rfl⟩
  | next _ hprev hfits hpassed hmore ih =>
    obtain ⟨l, hl, rfl, rfl⟩ := ih hprev
    obtain ⟨l', hstep, hoffset, hheader⟩ := dataStep_takeAll hfits hpassed hmore hch
    exact ⟨l', hl.step hstep, hoffset, hheader⟩

/-- The loop does not move on from an empty chunk that it passes over. -/
theorem exists_stalled {strict : Bool} {first offset : ℕ} {ch : ChunkHeader}
    (h : ChunkOffset strict pkt first offset) (hch : chunkAt pkt offset = some ch)
    (hpassed : ch.Passed strict) (hempty : ch.chunkLength = 0) :
    ∃ l l', ComesTo (takeAll strict) pkt () first l ∧
      dataStep (takeAll strict) pkt l = .again l' ∧ l'.offset = l.offset := by
  obtain ⟨l, hl, rfl, rfl⟩ := exists_comesTo h hch
  have hin := chunkAt_le hch
  have hsize : size32 l.ch.chunkLength = 0 := by rw [hempty]; rfl
  have hfits : l.offset + l.ch.chunkLength ≤ pkt.length := by omega
  have hmore : l.offset + size32 l.ch.chunkLength < pkt.length := by omega
  have hagain : chunkAt pkt (l.offset + size32 l.ch.chunkLength) = some l.ch := by
    rw [hsize]
    exact hch
  obtain ⟨l', hstep, hoffset, -⟩ := dataStep_takeAll hfits hpassed hmore hagain
  exact ⟨l, l', hl, hstep, by omega⟩

/-- The loop gets through the packet, whatever becomes of the data chunks, exactly when no chunk that
it passes over has the length zero. -/
theorem processData_consumes_iff (strict : Bool) (pkt : Bytes) (first : ℕ) :
    Consumes strict pkt first ↔ NoEmptyChunk strict pkt first := by
  refine ⟨fun h offset ch hat hch hpassed hempty => ?_, consumes_of_noEmptyChunk⟩
  obtain ⟨l, l', hl, hstep, hsame⟩ := exists_stalled hat hch hpassed hempty
  have hless := (h Unit (takeAll strict) () rfl).1 l l' hl hstep
  omega

end Proofs

/-- A packet of a DATA chunk with one byte and an ASCONF-ACK of the length zero behind it. -/
def dataThenAsconfAck : Bytes :=
  List.replicate 12 0 ++ [0, 3, 0, 17, 0, 0, 0, 1, 0, 0, 0, 0, 0, 0, 0, 0, 7, 0, 0, 0] ++
    [0x80, 0, 0, 0] ++ List.replicate 12 0

def atAsconfAck : DataLoop Unit where
  state := ()
  offset := 32
  ch := ⟨0x80, 0⟩
  numChunks := 1
  opErrs := []
  breakFlag := false

/-- With length zero the loop stays where it is for ever. -/
theorem dataThenAsconfAck_stalls :
    ¬ Consumes false dataThenAsconfAck 12 ∧
      ∀ fuel, processData (takeAll false) dataThenAsconfAck fuel () 12 = none := by
  have hfirst : dataStep (takeAll false) dataThenAsconfAck (start () 12 ⟨0, 17⟩) =
      .again atAsconfAck := rfl
  have hstay : dataStep (takeAll false) dataThenAsconfAck atAsconfAck =
      .again atAsconfAck := rfl
  constructor
  · intro h
    have hcomes : ComesTo (takeAll false) dataThenAsconfAck () 12 atAsconfAck :=
      ⟨⟨0, 17⟩, rfl, .single hfirst⟩
    exact lt_irrefl _ ((h Unit (takeAll false) () rfl).1 _ _ hcomes hstay)
  · have hloop (fuel : ℕ) :
        dataLoop (takeAll false) dataThenAsconfAck fuel atAsconfAck = none := by
      induction fuel with
      | zero => rfl
      | succ fuel ih =>
        rw [dataLoop, hstay]
        exact ih
    intro fuel
    cases fuel with
    | zero => rfl
    | succ fuel =>
      change (dataLoop _ _ (fuel + 1) (start () 12 ⟨0, 17⟩)).map _ = none
      rw [dataLoop, hfirst]
      exact congrArg (Option.map _) (hloop fuel)

end Sctp.DataRegion
