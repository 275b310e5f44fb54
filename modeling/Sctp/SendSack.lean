import Sctp.SackTable
import Sctp.Slide

/-! Building a SACK or an NR-SACK from the mapping arrays, `sctp_send_sack`. -/
namespace Sctp
open Bitmap

structure GapBlock where
  start : BitVec 16
  stop : BitVec 16
deriving DecidableEq, Repr

/-- The descriptors written so far, the memory the descriptor pointer stands at, and the two
flags of the loop. -/
structure SackBuild where
  blocks : List GapBlock
  cur : GapBlock
  mergeable : Bool
  limitReached : Bool
deriving DecidableEq, Repr

/-- `fits n`: after `n` descriptors of this pass there is room for another one. -/
def putGaps (fits : ℕ → Bool) (rightEdge : ℕ) (offset : ℤ) :
    List (ℕ × ℕ) → SackBuild → SackBuild
  | [], st => st
  | g :: gs, st =>
    let start :=
      if st.mergeable ∧ rightEdge ≠ 0 then st.cur.start else BitVec.ofInt 16 (g.1 + offset)
    let st :=
      { st with
        blocks := st.blocks ++ [⟨start, BitVec.ofInt 16 (g.2 + offset)⟩]
        mergeable := false }
    if fits st.blocks.length then putGaps fits rightEdge offset gs st
    else { st with limitReached := true }

def putByte (fits : ℕ → Bool) (offset : ℤ) (tsnMap : Byte) (st : SackBuild) : SackBuild :=
  let sel := selector tsnMap
  let st :=
    if st.mergeable ∧ sel.rightEdge ≠ 0 then
      -- back up: the first run of this byte continues the last block
      { st with blocks := st.blocks.dropLast, cur := st.blocks.getLastD st.cur }
    else st
  if sel.numEntries = 0 then { st with mergeable := false }
  else
    let st := putGaps fits sel.rightEdge offset sel.entries st
    if sel.leftEdge ≠ 0 then { st with mergeable := true } else st

def putBytes (fits : ℕ → Bool) : ℤ → List Byte → SackBuild → SackBuild
  | _, [], st => st
  | offset, b :: bs, st =>
    let st := putByte fits offset b st
    if st.limitReached then st else putBytes fits (offset + 8) bs st

/-- The first byte loses the bits up to the cumulative TSN. -/
def maskFirst (offset : ℤ) : List Byte → List Byte
  | [] => []
  | b :: bs => (b &&& (BitVec.allOnes 8 <<< (1 - offset).toNat)) :: bs

def sackStart : SackBuild := ⟨[], ⟨0, 0⟩, false, false⟩

/-- One pass over the first `siz` bytes of a map. -/
def sackPass (fits : ℕ → Bool) (offset : ℤ) (byte : ℕ → Byte) (siz : ℕ) : SackBuild :=
  putBytes fits offset (maskFirst offset ((List.range siz).map byte)) sackStart

/-- Number of bytes to look at in a SACK, in unsigned 32 bit arithmetic. -/
def sackSiz (highest base : Tsn) : ℕ :=
  if base < highest then (((highest - base) + 1 + 7) / 8).toNat
  else (((maxTsn - highest) + 1 + highest + 7) / 8).toNat

/-- Number of bytes to look at in each pass of an NR-SACK. -/
def nrSackSiz (highest base : Tsn) : ℕ :=
  if base < highest then (((highest - base) + 1 + 7) / 8).toNat
  else (((maxTsn - base) + 1 + highest + 7) / 8).toNat

def sackOffset (base cum : Tsn) : ℤ := if tsnGt base cum then 1 else (base - cum).toInt

structure SackChunk where
  cumTsnAck : Tsn
  aRwnd : BitVec 32
  gapAckBlks : List GapBlock
  nrGapAckBlks : List GapBlock
  dupTsns : List Tsn
  limitReached : Bool
deriving DecidableEq, Repr

/-- What `sctp_send_sack` reads besides the maps: whether NR-SACKs are in use, the receive
window, the duplicates to report, and the room in the new mbuf and in the path MTU. -/
structure SackEnv where
  nrsackSupported : Bool
  myRwnd : BitVec 32
  dupTsns : List Tsn
  trailingSpace : ℕ
  mtu : ℕ
deriving Repr

/-- `SCTP_MIN_OVERHEAD`: an IPv6 header and the common header. -/
def minOverhead : ℕ := 52

namespace SackEnv

/-- The chunk ends at the end of the mbuf or of the path MTU, whichever comes first; the
difference is unsigned, so an MTU below the overhead does not count. -/
def space (env : SackEnv) : ℕ :=
  if minOverhead ≤ env.mtu ∧ env.mtu - minOverhead < env.trailingSpace then env.mtu - minOverhead
  else env.trailingSpace

def header (env : SackEnv) : ℕ := if env.nrsackSupported then 20 else 16

/-- Room for one more 4 byte item behind `n` of them. -/
def fits (env : SackEnv) (n : ℕ) : Bool := decide (env.header + 4 * n + 4 ≤ env.space)

end SackEnv

/-- Duplicate TSNs go behind the blocks while there is room. -/
def putDups (fits : ℕ → Bool) : List Tsn → ℕ → List Tsn
  | [], _ => []
  | t :: ts, n => if fits (n + 1) then t :: putDups fits ts (n + 1) else [t]

/-- The gap blocks of a SACK: one pass over both maps. -/
def sackGaps (env : SackEnv) (s : TsnMap) : SackBuild :=
  let highest :=
    if tsnGt s.highestTsnInsideMap s.highestTsnInsideNrMap then s.highestTsnInsideMap
    else s.highestTsnInsideNrMap
  if tsnGt highest s.cumulativeTsn then
    sackPass env.fits (sackOffset s.mappingArrayBaseTsn s.cumulativeTsn)
      (fun i => s.mappingArray.getD i 0 ||| s.nrMappingArray.getD i 0)
      (sackSiz highest s.mappingArrayBaseTsn)
  else sackStart

def nrSackGaps (env : SackEnv) (s : TsnMap) : SackBuild :=
  if tsnGt s.highestTsnInsideMap s.cumulativeTsn then
    sackPass env.fits (sackOffset s.mappingArrayBaseTsn s.cumulativeTsn)
      (fun i => s.mappingArray.getD i 0) (nrSackSiz s.highestTsnInsideMap s.mappingArrayBaseTsn)
  else sackStart

/-- The non-revocable gap blocks of an NR-SACK, behind `n` revocable ones. -/
def nrSackNrGaps (env : SackEnv) (s : TsnMap) (n : ℕ) : SackBuild :=
  if tsnGt s.highestTsnInsideNrMap s.cumulativeTsn then
    sackPass (fun i => env.fits (n + i)) (sackOffset s.mappingArrayBaseTsn s.cumulativeTsn)
      (fun i => s.nrMappingArray.getD i 0)
      (nrSackSiz s.highestTsnInsideNrMap s.mappingArrayBaseTsn)
  else sackStart

/-- The chunk built from the maps as the slide left them. -/
def buildSack (env : SackEnv) (s : TsnMap) : SackChunk :=
  if env.nrsackSupported then
    let gaps := nrSackGaps env s
    let nrGaps := if gaps.limitReached then sackStart else nrSackNrGaps env s gaps.blocks.length
    let limit := gaps.limitReached || nrGaps.limitReached
    { cumTsnAck := s.cumulativeTsn
      aRwnd := env.myRwnd
      gapAckBlks := gaps.blocks
      nrGapAckBlks := nrGaps.blocks
      dupTsns := if limit then []
        else putDups env.fits env.dupTsns (gaps.blocks.length + nrGaps.blocks.length)
      limitReached := limit }
  else
    let gaps := sackGaps env s
    { cumTsnAck := s.cumulativeTsn
      aRwnd := env.myRwnd
      gapAckBlks := gaps.blocks
      nrGapAckBlks := []
      dupTsns := if gaps.limitReached then [] else putDups env.fits env.dupTsns gaps.blocks.length
      limitReached := gaps.limitReached }

/-- `sctp_send_sack`, once it has a chunk and an mbuf: the maps are slid first. -/
def sendSack (env : SackEnv) (s : TsnMap) : TsnMap × SackChunk :=
  let s := s.slideMappingArrays
  (s, buildSack env s)

end Sctp
