import Sctp.Lib.Bitmap
import Sctp.Lib.Runs

/-! The table with which gap reports are built: for every byte of a bitmap its runs of ones. -/
namespace Sctp
open Bitmap

structure SackTrack where
  rightEdge : ℕ
  leftEdge : ℕ
  numEntries : ℕ
  gaps : List (ℕ × ℕ)
deriving DecidableEq, Repr, Inhabited

/-- `sack_array`: entry `b` lists the runs of one bits in byte `b`. The right edge is bit 0. -/
def sackArray : List SackTrack := [
  ⟨0, 0, 0, [(0, 0), (0, 0), (0, 0), (0, 0)]⟩, ⟨1, 0, 1, [(0, 0), (0, 0), (0, 0), (0, 0)]⟩,
  ⟨0, 0, 1, [(1, 1), (0, 0), (0, 0), (0, 0)]⟩, ⟨1, 0, 1, [(0, 1), (0, 0), (0, 0), (0, 0)]⟩,
  ⟨0, 0, 1, [(2, 2), (0, 0), (0, 0), (0, 0)]⟩, ⟨1, 0, 2, [(0, 0), (2, 2), (0, 0), (0, 0)]⟩,
  ⟨0, 0, 1, [(1, 2), (0, 0), (0, 0), (0, 0)]⟩, ⟨1, 0, 1, [(0, 2), (0, 0), (0, 0), (0, 0)]⟩,
  ⟨0, 0, 1, [(3, 3), (0, 0), (0, 0), (0, 0)]⟩, ⟨1, 0, 2, [(0, 0), (3, 3), (0, 0), (0, 0)]⟩,
  ⟨0, 0, 2, [(1, 1), (3, 3), (0, 0), (0, 0)]⟩, ⟨1, 0, 2, [(0, 1), (3, 3), (0, 0), (0, 0)]⟩,
  ⟨0, 0, 1, [(2, 3), (0, 0), (0, 0), (0, 0)]⟩, ⟨1, 0, 2, [(0, 0), (2, 3), (0, 0), (0, 0)]⟩,
  ⟨0, 0, 1, [(1, 3), (0, 0), (0, 0), (0, 0)]⟩, ⟨1, 0, 1, [(0, 3), (0, 0), (0, 0), (0, 0)]⟩,
  ⟨0, 0, 1, [(4, 4), (0, 0), (0, 0), (0, 0)]⟩, ⟨1, 0, 2, [(0, 0), (4, 4), (0, 0), (0, 0)]⟩,
  ⟨0, 0, 2, [(1, 1), (4, 4), (0, 0), (0, 0)]⟩, ⟨1, 0, 2, [(0, 1), (4, 4), (0, 0), (0, 0)]⟩,
  ⟨0, 0, 2, [(2, 2), (4, 4), (0, 0), (0, 0)]⟩, ⟨1, 0, 3, [(0, 0), (2, 2), (4, 4), (0, 0)]⟩,
  ⟨0, 0, 2, [(1, 2), (4, 4), (0, 0), (0, 0)]⟩, ⟨1, 0, 2, [(0, 2), (4, 4), (0, 0), (0, 0)]⟩,
  ⟨0, 0, 1, [(3, 4), (0, 0), (0, 0), (0, 0)]⟩, ⟨1, 0, 2, [(0, 0), (3, 4), (0, 0), (0, 0)]⟩,
  ⟨0, 0, 2, [(1, 1), (3, 4), (0, 0), (0, 0)]⟩, ⟨1, 0, 2, [(0, 1), (3, 4), (0, 0), (0, 0)]⟩,
  ⟨0, 0, 1, [(2, 4), (0, 0), (0, 0), (0, 0)]⟩, ⟨1, 0, 2, [(0, 0), (2, 4), (0, 0), (0, 0)]⟩,
  ⟨0, 0, 1, [(1, 4), (0, 0), (0, 0), (0, 0)]⟩, ⟨1, 0, 1, [(0, 4), (0, 0), (0, 0), (0, 0)]⟩,
  ⟨0, 0, 1, [(5, 5), (0, 0), (0, 0), (0, 0)]⟩, ⟨1, 0, 2, [(0, 0), (5, 5), (0, 0), (0, 0)]⟩,
  ⟨0, 0, 2, [(1, 1), (5, 5), (0, 0), (0, 0)]⟩, ⟨1, 0, 2, [(0, 1), (5, 5), (0, 0), (0, 0)]⟩,
  ⟨0, 0, 2, [(2, 2), (5, 5), (0, 0), (0, 0)]⟩, ⟨1, 0, 3, [(0, 0), (2, 2), (5, 5), (0, 0)]⟩,
  ⟨0, 0, 2, [(1, 2), (5, 5), (0, 0), (0, 0)]⟩, ⟨1, 0, 2, [(0, 2), (5, 5), (0, 0), (0, 0)]⟩,
  ⟨0, 0, 2, [(3, 3), (5, 5), (0, 0), (0, 0)]⟩, ⟨1, 0, 3, [(0, 0), (3, 3), (5, 5), (0, 0)]⟩,
  ⟨0, 0, 3, [(1, 1), (3, 3), (5, 5), (0, 0)]⟩, ⟨1, 0, 3, [(0, 1), (3, 3), (5, 5), (0, 0)]⟩,
  ⟨0, 0, 2, [(2, 3), (5, 5), (0, 0), (0, 0)]⟩, ⟨1, 0, 3, [(0, 0), (2, 3), (5, 5), (0, 0)]⟩,
  ⟨0, 0, 2, [(1, 3), (5, 5), (0, 0), (0, 0)]⟩, ⟨1, 0, 2, [(0, 3), (5, 5), (0, 0), (0, 0)]⟩,
  ⟨0, 0, 1, [(4, 5), (0, 0), (0, 0), (0, 0)]⟩, ⟨1, 0, 2, [(0, 0), (4, 5), (0, 0), (0, 0)]⟩,
  ⟨0, 0, 2, [(1, 1), (4, 5), (0, 0), (0, 0)]⟩, ⟨1, 0, 2, [(0, 1), (4, 5), (0, 0), (0, 0)]⟩,
  ⟨0, 0, 2, [(2, 2), (4, 5), (0, 0), (0, 0)]⟩, ⟨1, 0, 3, [(0, 0), (2, 2), (4, 5), (0, 0)]⟩,
  ⟨0, 0, 2, [(1, 2), (4, 5), (0, 0), (0, 0)]⟩, ⟨1, 0, 2, [(0, 2), (4, 5), (0, 0), (0, 0)]⟩,
  ⟨0, 0, 1, [(3, 5), (0, 0), (0, 0), (0, 0)]⟩, ⟨1, 0, 2, [(0, 0), (3, 5), (0, 0), (0, 0)]⟩,
  ⟨0, 0, 2, [(1, 1), (3, 5), (0, 0), (0, 0)]⟩, ⟨1, 0, 2, [(0, 1), (3, 5), (0, 0), (0, 0)]⟩,
  ⟨0, 0, 1, [(2, 5), (0, 0), (0, 0), (0, 0)]⟩, ⟨1, 0, 2, [(0, 0), (2, 5), (0, 0), (0, 0)]⟩,
  ⟨0, 0, 1, [(1, 5), (0, 0), (0, 0), (0, 0)]⟩, ⟨1, 0, 1, [(0, 5), (0, 0), (0, 0), (0, 0)]⟩,
  ⟨0, 0, 1, [(6, 6), (0, 0), (0, 0), (0, 0)]⟩, ⟨1, 0, 2, [(0, 0), (6, 6), (0, 0), (0, 0)]⟩,
  ⟨0, 0, 2, [(1, 1), (6, 6), (0, 0), (0, 0)]⟩, ⟨1, 0, 2, [(0, 1), (6, 6), (0, 0), (0, 0)]⟩,
  ⟨0, 0, 2, [(2, 2), (6, 6), (0, 0), (0, 0)]⟩, ⟨1, 0, 3, [(0, 0), (2, 2), (6, 6), (0, 0)]⟩,
  ⟨0, 0, 2, [(1, 2), (6, 6), (0, 0), (0, 0)]⟩, ⟨1, 0, 2, [(0, 2), (6, 6), (0, 0), (0, 0)]⟩,
  ⟨0, 0, 2, [(3, 3), (6, 6), (0, 0), (0, 0)]⟩, ⟨1, 0, 3, [(0, 0), (3, 3), (6, 6), (0, 0)]⟩,
  ⟨0, 0, 3, [(1, 1), (3, 3), (6, 6), (0, 0)]⟩, ⟨1, 0, 3, [(0, 1), (3, 3), (6, 6), (0, 0)]⟩,
  ⟨0, 0, 2, [(2, 3), (6, 6), (0, 0), (0, 0)]⟩, ⟨1, 0, 3, [(0, 0), (2, 3), (6, 6), (0, 0)]⟩,
  ⟨0, 0, 2, [(1, 3), (6, 6), (0, 0), (0, 0)]⟩, ⟨1, 0, 2, [(0, 3), (6, 6), (0, 0), (0, 0)]⟩,
  ⟨0, 0, 2, [(4, 4), (6, 6), (0, 0), (0, 0)]⟩, ⟨1, 0, 3, [(0, 0), (4, 4), (6, 6), (0, 0)]⟩,
  ⟨0, 0, 3, [(1, 1), (4, 4), (6, 6), (0, 0)]⟩, ⟨1, 0, 3, [(0, 1), (4, 4), (6, 6), (0, 0)]⟩,
  ⟨0, 0, 3, [(2, 2), (4, 4), (6, 6), (0, 0)]⟩, ⟨1, 0, 4, [(0, 0), (2, 2), (4, 4), (6, 6)]⟩,
  ⟨0, 0, 3, [(1, 2), (4, 4), (6, 6), (0, 0)]⟩, ⟨1, 0, 3, [(0, 2), (4, 4), (6, 6), (0, 0)]⟩,
  ⟨0, 0, 2, [(3, 4), (6, 6), (0, 0), (0, 0)]⟩, ⟨1, 0, 3, [(0, 0), (3, 4), (6, 6), (0, 0)]⟩,
  ⟨0, 0, 3, [(1, 1), (3, 4), (6, 6), (0, 0)]⟩, ⟨1, 0, 3, [(0, 1), (3, 4), (6, 6), (0, 0)]⟩,
  ⟨0, 0, 2, [(2, 4), (6, 6), (0, 0), (0, 0)]⟩, ⟨1, 0, 3, [(0, 0), (2, 4), (6, 6), (0, 0)]⟩,
  ⟨0, 0, 2, [(1, 4), (6, 6), (0, 0), (0, 0)]⟩, ⟨1, 0, 2, [(0, 4), (6, 6), (0, 0), (0, 0)]⟩,
  ⟨0, 0, 1, [(5, 6), (0, 0), (0, 0), (0, 0)]⟩, ⟨1, 0, 2, [(0, 0), (5, 6), (0, 0), (0, 0)]⟩,
  ⟨0, 0, 2, [(1, 1), (5, 6), (0, 0), (0, 0)]⟩, ⟨1, 0, 2, [(0, 1), (5, 6), (0, 0), (0, 0)]⟩,
  ⟨0, 0, 2, [(2, 2), (5, 6), (0, 0), (0, 0)]⟩, ⟨1, 0, 3, [(0, 0), (2, 2), (5, 6), (0, 0)]⟩,
  ⟨0, 0, 2, [(1, 2), (5, 6), (0, 0), (0, 0)]⟩, ⟨1, 0, 2, [(0, 2), (5, 6), (0, 0), (0, 0)]⟩,
  ⟨0, 0, 2, [(3, 3), (5, 6), (0, 0), (0, 0)]⟩, ⟨1, 0, 3, [(0, 0), (3, 3), (5, 6), (0, 0)]⟩,
  ⟨0, 0, 3, [(1, 1), (3, 3), (5, 6), (0, 0)]⟩, ⟨1, 0, 3, [(0, 1), (3, 3), (5, 6), (0, 0)]⟩,
  ⟨0, 0, 2, [(2, 3), (5, 6), (0, 0), (0, 0)]⟩, ⟨1, 0, 3, [(0, 0), (2, 3), (5, 6), (0, 0)]⟩,
  ⟨0, 0, 2, [(1, 3), (5, 6), (0, 0), (0, 0)]⟩, ⟨1, 0, 2, [(0, 3), (5, 6), (0, 0), (0, 0)]⟩,
  ⟨0, 0, 1, [(4, 6), (0, 0), (0, 0), (0, 0)]⟩, ⟨1, 0, 2, [(0, 0), (4, 6), (0, 0), (0, 0)]⟩,
  ⟨0, 0, 2, [(1, 1), (4, 6), (0, 0), (0, 0)]⟩, ⟨1, 0, 2, [(0, 1), (4, 6), (0, 0), (0, 0)]⟩,
  ⟨0, 0, 2, [(2, 2), (4, 6), (0, 0), (0, 0)]⟩, ⟨1, 0, 3, [(0, 0), (2, 2), (4, 6), (0, 0)]⟩,
  ⟨0, 0, 2, [(1, 2), (4, 6), (0, 0), (0, 0)]⟩, ⟨1, 0, 2, [(0, 2), (4, 6), (0, 0), (0, 0)]⟩,
  ⟨0, 0, 1, [(3, 6), (0, 0), (0, 0), (0, 0)]⟩, ⟨1, 0, 2, [(0, 0), (3, 6), (0, 0), (0, 0)]⟩,
  ⟨0, 0, 2, [(1, 1), (3, 6), (0, 0), (0, 0)]⟩, ⟨1, 0, 2, [(0, 1), (3, 6), (0, 0), (0, 0)]⟩,
  ⟨0, 0, 1, [(2, 6), (0, 0), (0, 0), (0, 0)]⟩, ⟨1, 0, 2, [(0, 0), (2, 6), (0, 0), (0, 0)]⟩,
  ⟨0, 0, 1, [(1, 6), (0, 0), (0, 0), (0, 0)]⟩, ⟨1, 0, 1, [(0, 6), (0, 0), (0, 0), (0, 0)]⟩,
  ⟨0, 1, 1, [(7, 7), (0, 0), (0, 0), (0, 0)]⟩, ⟨1, 1, 2, [(0, 0), (7, 7), (0, 0), (0, 0)]⟩,
  ⟨0, 1, 2, [(1, 1), (7, 7), (0, 0), (0, 0)]⟩, ⟨1, 1, 2, [(0, 1), (7, 7), (0, 0), (0, 0)]⟩,
  ⟨0, 1, 2, [(2, 2), (7, 7), (0, 0), (0, 0)]⟩, ⟨1, 1, 3, [(0, 0), (2, 2), (7, 7), (0, 0)]⟩,
  ⟨0, 1, 2, [(1, 2), (7, 7), (0, 0), (0, 0)]⟩, ⟨1, 1, 2, [(0, 2), (7, 7), (0, 0), (0, 0)]⟩,
  ⟨0, 1, 2, [(3, 3), (7, 7), (0, 0), (0, 0)]⟩, ⟨1, 1, 3, [(0, 0), (3, 3), (7, 7), (0, 0)]⟩,
  ⟨0, 1, 3, [(1, 1), (3, 3), (7, 7), (0, 0)]⟩, ⟨1, 1, 3, [(0, 1), (3, 3), (7, 7), (0, 0)]⟩,
  ⟨0, 1, 2, [(2, 3), (7, 7), (0, 0), (0, 0)]⟩, ⟨1, 1, 3, [(0, 0), (2, 3), (7, 7), (0, 0)]⟩,
  ⟨0, 1, 2, [(1, 3), (7, 7), (0, 0), (0, 0)]⟩, ⟨1, 1, 2, [(0, 3), (7, 7), (0, 0), (0, 0)]⟩,
  ⟨0, 1, 2, [(4, 4), (7, 7), (0, 0), (0, 0)]⟩, ⟨1, 1, 3, [(0, 0), (4, 4), (7, 7), (0, 0)]⟩,
  ⟨0, 1, 3, [(1, 1), (4, 4), (7, 7), (0, 0)]⟩, ⟨1, 1, 3, [(0, 1), (4, 4), (7, 7), (0, 0)]⟩,
  ⟨0, 1, 3, [(2, 2), (4, 4), (7, 7), (0, 0)]⟩, ⟨1, 1, 4, [(0, 0), (2, 2), (4, 4), (7, 7)]⟩,
  ⟨0, 1, 3, [(1, 2), (4, 4), (7, 7), (0, 0)]⟩, ⟨1, 1, 3, [(0, 2), (4, 4), (7, 7), (0, 0)]⟩,
  ⟨0, 1, 2, [(3, 4), (7, 7), (0, 0), (0, 0)]⟩, ⟨1, 1, 3, [(0, 0), (3, 4), (7, 7), (0, 0)]⟩,
  ⟨0, 1, 3, [(1, 1), (3, 4), (7, 7), (0, 0)]⟩, ⟨1, 1, 3, [(0, 1), (3, 4), (7, 7), (0, 0)]⟩,
  ⟨0, 1, 2, [(2, 4), (7, 7), (0, 0), (0, 0)]⟩, ⟨1, 1, 3, [(0, 0), (2, 4), (7, 7), (0, 0)]⟩,
  ⟨0, 1, 2, [(1, 4), (7, 7), (0, 0), (0, 0)]⟩, ⟨1, 1, 2, [(0, 4), (7, 7), (0, 0), (0, 0)]⟩,
  ⟨0, 1, 2, [(5, 5), (7, 7), (0, 0), (0, 0)]⟩, ⟨1, 1, 3, [(0, 0), (5, 5), (7, 7), (0, 0)]⟩,
  ⟨0, 1, 3, [(1, 1), (5, 5), (7, 7), (0, 0)]⟩, ⟨1, 1, 3, [(0, 1), (5, 5), (7, 7), (0, 0)]⟩,
  ⟨0, 1, 3, [(2, 2), (5, 5), (7, 7), (0, 0)]⟩, ⟨1, 1, 4, [(0, 0), (2, 2), (5, 5), (7, 7)]⟩,
  ⟨0, 1, 3, [(1, 2), (5, 5), (7, 7), (0, 0)]⟩, ⟨1, 1, 3, [(0, 2), (5, 5), (7, 7), (0, 0)]⟩,
  ⟨0, 1, 3, [(3, 3), (5, 5), (7, 7), (0, 0)]⟩, ⟨1, 1, 4, [(0, 0), (3, 3), (5, 5), (7, 7)]⟩,
  ⟨0, 1, 4, [(1, 1), (3, 3), (5, 5), (7, 7)]⟩, ⟨1, 1, 4, [(0, 1), (3, 3), (5, 5), (7, 7)]⟩,
  ⟨0, 1, 3, [(2, 3), (5, 5), (7, 7), (0, 0)]⟩, ⟨1, 1, 4, [(0, 0), (2, 3), (5, 5), (7, 7)]⟩,
  ⟨0, 1, 3, [(1, 3), (5, 5), (7, 7), (0, 0)]⟩, ⟨1, 1, 3, [(0, 3), (5, 5), (7, 7), (0, 0)]⟩,
  ⟨0, 1, 2, [(4, 5), (7, 7), (0, 0), (0, 0)]⟩, ⟨1, 1, 3, [(0, 0), (4, 5), (7, 7), (0, 0)]⟩,
  ⟨0, 1, 3, [(1, 1), (4, 5), (7, 7), (0, 0)]⟩, ⟨1, 1, 3, [(0, 1), (4, 5), (7, 7), (0, 0)]⟩,
  ⟨0, 1, 3, [(2, 2), (4, 5), (7, 7), (0, 0)]⟩, ⟨1, 1, 4, [(0, 0), (2, 2), (4, 5), (7, 7)]⟩,
  ⟨0, 1, 3, [(1, 2), (4, 5), (7, 7), (0, 0)]⟩, ⟨1, 1, 3, [(0, 2), (4, 5), (7, 7), (0, 0)]⟩,
  ⟨0, 1, 2, [(3, 5), (7, 7), (0, 0), (0, 0)]⟩, ⟨1, 1, 3, [(0, 0), (3, 5), (7, 7), (0, 0)]⟩,
  ⟨0, 1, 3, [(1, 1), (3, 5), (7, 7), (0, 0)]⟩, ⟨1, 1, 3, [(0, 1), (3, 5), (7, 7), (0, 0)]⟩,
  ⟨0, 1, 2, [(2, 5), (7, 7), (0, 0), (0, 0)]⟩, ⟨1, 1, 3, [(0, 0), (2, 5), (7, 7), (0, 0)]⟩,
  ⟨0, 1, 2, [(1, 5), (7, 7), (0, 0), (0, 0)]⟩, ⟨1, 1, 2, [(0, 5), (7, 7), (0, 0), (0, 0)]⟩,
  ⟨0, 1, 1, [(6, 7), (0, 0), (0, 0), (0, 0)]⟩, ⟨1, 1, 2, [(0, 0), (6, 7), (0, 0), (0, 0)]⟩,
  ⟨0, 1, 2, [(1, 1), (6, 7), (0, 0), (0, 0)]⟩, ⟨1, 1, 2, [(0, 1), (6, 7), (0, 0), (0, 0)]⟩,
  ⟨0, 1, 2, [(2, 2), (6, 7), (0, 0), (0, 0)]⟩, ⟨1, 1, 3, [(0, 0), (2, 2), (6, 7), (0, 0)]⟩,
  ⟨0, 1, 2, [(1, 2), (6, 7), (0, 0), (0, 0)]⟩, ⟨1, 1, 2, [(0, 2), (6, 7), (0, 0), (0, 0)]⟩,
  ⟨0, 1, 2, [(3, 3), (6, 7), (0, 0), (0, 0)]⟩, ⟨1, 1, 3, [(0, 0), (3, 3), (6, 7), (0, 0)]⟩,
  ⟨0, 1, 3, [(1, 1), (3, 3), (6, 7), (0, 0)]⟩, ⟨1, 1, 3, [(0, 1), (3, 3), (6, 7), (0, 0)]⟩,
  ⟨0, 1, 2, [(2, 3), (6, 7), (0, 0), (0, 0)]⟩, ⟨1, 1, 3, [(0, 0), (2, 3), (6, 7), (0, 0)]⟩,
  ⟨0, 1, 2, [(1, 3), (6, 7), (0, 0), (0, 0)]⟩, ⟨1, 1, 2, [(0, 3), (6, 7), (0, 0), (0, 0)]⟩,
  ⟨0, 1, 2, [(4, 4), (6, 7), (0, 0), (0, 0)]⟩, ⟨1, 1, 3, [(0, 0), (4, 4), (6, 7), (0, 0)]⟩,
  ⟨0, 1, 3, [(1, 1), (4, 4), (6, 7), (0, 0)]⟩, ⟨1, 1, 3, [(0, 1), (4, 4), (6, 7), (0, 0)]⟩,
  ⟨0, 1, 3, [(2, 2), (4, 4), (6, 7), (0, 0)]⟩, ⟨1, 1, 4, [(0, 0), (2, 2), (4, 4), (6, 7)]⟩,
  ⟨0, 1, 3, [(1, 2), (4, 4), (6, 7), (0, 0)]⟩, ⟨1, 1, 3, [(0, 2), (4, 4), (6, 7), (0, 0)]⟩,
  ⟨0, 1, 2, [(3, 4), (6, 7), (0, 0), (0, 0)]⟩, ⟨1, 1, 3, [(0, 0), (3, 4), (6, 7), (0, 0)]⟩,
  ⟨0, 1, 3, [(1, 1), (3, 4), (6, 7), (0, 0)]⟩, ⟨1, 1, 3, [(0, 1), (3, 4), (6, 7), (0, 0)]⟩,
  ⟨0, 1, 2, [(2, 4), (6, 7), (0, 0), (0, 0)]⟩, ⟨1, 1, 3, [(0, 0), (2, 4), (6, 7), (0, 0)]⟩,
  ⟨0, 1, 2, [(1, 4), (6, 7), (0, 0), (0, 0)]⟩, ⟨1, 1, 2, [(0, 4), (6, 7), (0, 0), (0, 0)]⟩,
  ⟨0, 1, 1, [(5, 7), (0, 0), (0, 0), (0, 0)]⟩, ⟨1, 1, 2, [(0, 0), (5, 7), (0, 0), (0, 0)]⟩,
  ⟨0, 1, 2, [(1, 1), (5, 7), (0, 0), (0, 0)]⟩, ⟨1, 1, 2, [(0, 1), (5, 7), (0, 0), (0, 0)]⟩,
  ⟨0, 1, 2, [(2, 2), (5, 7), (0, 0), (0, 0)]⟩, ⟨1, 1, 3, [(0, 0), (2, 2), (5, 7), (0, 0)]⟩,
  ⟨0, 1, 2, [(1, 2), (5, 7), (0, 0), (0, 0)]⟩, ⟨1, 1, 2, [(0, 2), (5, 7), (0, 0), (0, 0)]⟩,
  ⟨0, 1, 2, [(3, 3), (5, 7), (0, 0), (0, 0)]⟩, ⟨1, 1, 3, [(0, 0), (3, 3), (5, 7), (0, 0)]⟩,
  ⟨0, 1, 3, [(1, 1), (3, 3), (5, 7), (0, 0)]⟩, ⟨1, 1, 3, [(0, 1), (3, 3), (5, 7), (0, 0)]⟩,
  ⟨0, 1, 2, [(2, 3), (5, 7), (0, 0), (0, 0)]⟩, ⟨1, 1, 3, [(0, 0), (2, 3), (5, 7), (0, 0)]⟩,
  ⟨0, 1, 2, [(1, 3), (5, 7), (0, 0), (0, 0)]⟩, ⟨1, 1, 2, [(0, 3), (5, 7), (0, 0), (0, 0)]⟩,
  ⟨0, 1, 1, [(4, 7), (0, 0), (0, 0), (0, 0)]⟩, ⟨1, 1, 2, [(0, 0), (4, 7), (0, 0), (0, 0)]⟩,
  ⟨0, 1, 2, [(1, 1), (4, 7), (0, 0), (0, 0)]⟩, ⟨1, 1, 2, [(0, 1), (4, 7), (0, 0), (0, 0)]⟩,
  ⟨0, 1, 2, [(2, 2), (4, 7), (0, 0), (0, 0)]⟩, ⟨1, 1, 3, [(0, 0), (2, 2), (4, 7), (0, 0)]⟩,
  ⟨0, 1, 2, [(1, 2), (4, 7), (0, 0), (0, 0)]⟩, ⟨1, 1, 2, [(0, 2), (4, 7), (0, 0), (0, 0)]⟩,
  ⟨0, 1, 1, [(3, 7), (0, 0), (0, 0), (0, 0)]⟩, ⟨1, 1, 2, [(0, 0), (3, 7), (0, 0), (0, 0)]⟩,
  ⟨0, 1, 2, [(1, 1), (3, 7), (0, 0), (0, 0)]⟩, ⟨1, 1, 2, [(0, 1), (3, 7), (0, 0), (0, 0)]⟩,
  ⟨0, 1, 1, [(2, 7), (0, 0), (0, 0), (0, 0)]⟩, ⟨1, 1, 2, [(0, 0), (2, 7), (0, 0), (0, 0)]⟩,
  ⟨0, 1, 1, [(1, 7), (0, 0), (0, 0), (0, 0)]⟩, ⟨1, 1, 1, [(0, 7), (0, 0), (0, 0), (0, 0)]⟩]

def selector (b : Byte) : SackTrack := sackArray.getD b.toNat default

def SackTrack.entries (e : SackTrack) : List (ℕ × ℕ) := e.gaps.take e.numEntries

private theorem sackArray_check (b : Byte) :
    ((selector b).entries.IsChain fun x y => x.2 + 1 < y.1) ∧
      (∀ a ∈ (selector b).entries, a.1 ≤ a.2 ∧ a.2 < 8) ∧
      (∀ k < 8, b.getLsbD k = (selector b).entries.any fun a => decide (a.1 ≤ k ∧ k ≤ a.2)) ∧
      ((selector b).rightEdge ≠ 0 ↔ b.getLsbD 0 = true) ∧
      ((selector b).leftEdge ≠ 0 ↔ b.getLsbD 7 = true) ∧
      (b.getLsbD 0 = true → (selector b).entries.head?.map Prod.fst = some 0) ∧
      ((selector b).numEntries = 0 ↔ (selector b).entries = []) ∧
      (selector b).entries.length ≤ 4 := by
  revert b
  decide +kernel

theorem selector_rightEdge (b : Byte) : (selector b).rightEdge ≠ 0 ↔ b.getLsbD 0 = true :=
  (sackArray_check b).2.2.2.1

theorem selector_leftEdge (b : Byte) : (selector b).leftEdge ≠ 0 ↔ b.getLsbD 7 = true :=
  (sackArray_check b).2.2.2.2.1

theorem selector_numEntries (b : Byte) :
    (selector b).numEntries = 0 ↔ (selector b).entries = [] :=
  (sackArray_check b).2.2.2.2.2.2.1

theorem selector_entries_length (b : Byte) : (selector b).entries.length ≤ 4 :=
  (sackArray_check b).2.2.2.2.2.2.2

/-- The table is right: every entry describes the one bits of its byte. -/
theorem selector_describes (b : Byte) :
    Runs.Describes (selector b).entries b.getLsbD 8 := by
  obtain ⟨hsep, hin, hbits, -⟩ := sackArray_check b
  refine ⟨hsep, ?_, ?_⟩
  · intro a ha
    obtain ⟨h1, h2⟩ := hin a ha
    refine ⟨h1, h2, ?_⟩
    intro k hk1 hk2
    rw [hbits k (by omega), List.any_eq_true]
    exact ⟨a, ha, by simp [hk1, hk2]⟩
  · intro k hk hb
    rw [hbits k hk, List.any_eq_true] at hb
    obtain ⟨a, ha, hak⟩ := hb
    exact ⟨a, ha, by simpa using hak⟩

/-- A byte with bit 0 set has a first run that starts there. -/
theorem selector_head {b : Byte} (h : b.getLsbD 0 = true) :
    ∃ e r, (selector b).entries = (0, e) :: r := by
  have hh := (sackArray_check b).2.2.2.2.2.1 h
  cases hr : (selector b).entries with
  | nil => simp [hr] at hh
  | cons a r =>
    simp only [hr, List.head?_cons, Option.map_some, Option.some.injEq] at hh
    exact ⟨a.2, r, by rw [← hh]⟩

end Sctp
