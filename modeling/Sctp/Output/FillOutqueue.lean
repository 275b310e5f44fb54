import Sctp.Output.MoveToOutqueue

/-! `sctp_fill_outqueue`, the loop around `sctp_move_to_outqueue`, and the user threads that fill
the stream queues in between. -/
namespace Sctp
open Bitmap

inductive AddressFamily where
  | inet
  | inet6
  | conn
  | other
deriving DecidableEq, Repr

/-- One call of `sctp_fill_outqueue`. The stream scheduler is any: `pick n` is the stream that it
selects before the `n`th move. `move n` says what the allocators do during that move. -/
structure FillCall where
  cfg : OutConfig
  family : AddressFamily
  mtu : ℤ
  fragPoint : ℕ
  eeorMode : Bool
  totalFlight : ℕ
  pick : ℕ → Option StreamNo
  chunkAllocFails : ℕ → Bool
  copyFails : ℕ → Bool
  leadingSpace : ℕ → ℕ
  mbufAllocFails : ℕ → Bool
  padFails : ℕ → Bool

namespace FillCall

def moveCall (fc : FillCall) (n : ℕ) (goalMtu : ℤ) : MoveCall where
  goalMtu := goalMtu.toNat
  fragPoint := fc.fragPoint
  eeorMode := fc.eeorMode
  totalFlight := fc.totalFlight
  chunkAllocFails := fc.chunkAllocFails n
  copyFails := fc.copyFails n
  leadingSpace := fc.leadingSpace n
  mbufAllocFails := fc.mbufAllocFails n
  padFails := fc.padFails n

/-- Room for payload in a packet, a multiple of four. -/
def goalMtu (fc : FillCall) : ℤ :=
  let overhead : ℤ :=
    match fc.family with
    | .inet => 32
    | .inet6 => 52
    | .conn => 12
    | .other => 0
  (fc.mtu - overhead - fc.cfg.headerSize) / 4 * 4

end FillCall

/-- A move that was made: the state before it, the stream and the call. -/
structure MoveMade where
  assoc : OutAssoc
  stream : StreamNo
  call : MoveCall

structure FillResult where
  assoc : OutAssoc
  quitNow : Bool
  /-- The moves of the call, for the statements only. -/
  moves : List MoveMade

namespace FillResult

def cons (m : MoveMade) (r : FillResult) : FillResult := { r with moves := m :: r.moves }

end FillResult

/-- The loop of `sctp_fill_outqueue`. Every round takes at least one chunk header off the goal, so
the goal itself is enough fuel. -/
def fillLoop (fc : FillCall) : ℕ → ℕ → ℤ → StreamNo → OutAssoc → FillResult
  | 0, _, _, _, a => ⟨a, false, []⟩
  | fuel + 1, n, goal, i, a =>
    if goal ≤ 0 then ⟨a, false, []⟩
    else
      let call := fc.moveCall n goal
      let r := moveToOutqueue fc.cfg call a i
      let goal' := (goal - (r.moved + dataChunkSize)) / 4 * 4
      .cons ⟨a, i, call⟩ <|
        if r.locked then
          let a := { r.assoc with lockedOnSending := some i }
          if r.moved = 0 ∨ r.giveup ∨ r.bail then ⟨a, r.bail, []⟩
          else fillLoop fc fuel (n + 1) goal' i a
        else
          let a := { r.assoc with lockedOnSending := none }
          if r.giveup ∨ r.bail then ⟨a, r.bail, []⟩
          else
            match fc.pick (n + 1) with
            | none => ⟨a, r.bail, []⟩
            | some j => fillLoop fc fuel (n + 1) goal' j a

/-- `sctp_fill_outqueue`: stay on the stream of an unfinished message. -/
def fillOutqueue (fc : FillCall) (a : OutAssoc) : FillResult :=
  let strq :=
    match a.lockedOnSending with
    | some i => some i
    | none => fc.pick 0
  match strq with
  | none => ⟨a, false, []⟩
  | some i => fillLoop fc fc.goalMtu.toNat 0 fc.goalMtu i a

/-- More fuel than the goal changes nothing. -/
theorem fillLoop_fuel (fc : FillCall) {fuel fuel' n : ℕ} {goal : ℤ} (i : StreamNo) (a : OutAssoc)
    (h : goal.toNat ≤ fuel) (h' : goal.toNat ≤ fuel') :
    fillLoop fc fuel n goal i a = fillLoop fc fuel' n goal i a := by
  induction fuel generalizing fuel' n goal i a with
  | zero =>
    cases fuel' with
    | zero => rfl
    | succ fuel' =>
      unfold fillLoop
      rw [if_pos (by omega)]
  | succ fuel ih =>
    cases fuel' with
    | zero =>
      unfold fillLoop
      rw [if_pos (by omega)]
    | succ fuel' =>
      unfold fillLoop
      have hgoal : ∀ m : ℕ, 0 < goal →
          ((goal - (m + dataChunkSize)) / 4 * 4).toNat ≤ fuel ∧
            ((goal - (m + dataChunkSize)) / 4 * 4).toNat ≤ fuel' := by
        intro m hm
        unfold dataChunkSize
        omega
      split_ifs with hg
      · rfl
      · obtain ⟨h1, h2⟩ := hgoal (moveToOutqueue fc.cfg (fc.moveCall n goal) a i).moved (by omega)
        simp only
        congr 1
        split_ifs
        · rfl
        · exact ih _ _ h1 h2
        · rfl
        · split
          · rfl
          · exact ih _ _ h1 h2

inductive SenderEvent where
  /-- A new message; it gets an identity of its own. -/
  | enqueue (i : StreamNo) (sp : StreamQueuePending)
  /-- More data for a message that is not complete. -/
  | extend (i : StreamNo) (id : ℕ) (data : List (List Byte))
  | complete (i : StreamNo) (id : ℕ)
  | allDone (i : StreamNo) (id : ℕ)
  /-- The sender gave up in the middle of a message. -/
  | discard (i : StreamNo) (id : ℕ)

/-- The association and the next free message identity. -/
structure FillState where
  assoc : OutAssoc
  nextId : ℕ

namespace OutAssoc

/-- Change message `id` of stream `i`. -/
def modifyMessage (a : OutAssoc) (i : StreamNo) (id : ℕ)
    (f : StreamQueuePending → StreamQueuePending) : OutAssoc :=
  a.setStream i
    { a.strmout i with
      outqueue := (a.strmout i).outqueue.map fun sp => if sp.id = id then f sp else sp }

end OutAssoc

def SenderEvent.apply (s : FillState) : SenderEvent → FillState
  | .enqueue i sp =>
    let sp :=
      { sp with
        id := s.nextId
        length := sp.data.flatten.length
        stream := i
        someTaken := false
        putLastOut := false }
    { assoc := s.assoc.setStream i
        { s.assoc.strmout i with
          outqueue := (s.assoc.strmout i).outqueue ++ [sp]
          lastMsgIncomplete := !sp.msgIsComplete }
      nextId := s.nextId + 1 }
  | .extend i id data =>
    { s with
      assoc := s.assoc.modifyMessage i id fun sp =>
        if sp.msgIsComplete then sp
        else
          { sp with
            data := sp.data ++ data
            length := sp.length + data.flatten.length } }
  | .complete i id =>
    { s with assoc := s.assoc.modifyMessage i id fun sp => { sp with msgIsComplete := true } }
  | .allDone i id =>
    { s with assoc := s.assoc.modifyMessage i id fun sp => { sp with senderAllDone := true } }
  | .discard i id =>
    { s with assoc := s.assoc.modifyMessage i id fun sp => { sp with discardRest := true } }

inductive FillEvent where
  | sender (ev : SenderEvent)
  | fill (fc : FillCall)

def FillEvent.apply (s : FillState) : FillEvent → FillState
  | .sender ev => ev.apply s
  | .fill fc => { s with assoc := (fillOutqueue fc s.assoc).assoc }

def FillEvent.moves (s : FillState) : FillEvent → List MoveMade
  | .sender _ => []
  | .fill fc => (fillOutqueue fc s.assoc).moves

def fillRun (s : FillState) (evs : List FillEvent) : FillState := evs.foldl FillEvent.apply s

def fillMoves (s : FillState) : List FillEvent → List MoveMade
  | [] => []
  | ev :: evs => ev.moves s ++ fillMoves (ev.apply s) evs

def freshAssoc (sendingSeq : Tsn) : OutAssoc where
  strmout i :=
    { outqueue := [], streamNo := i, nextSequenceSend := 0, chunksOnQueues := 0
      lastMsgIncomplete := false }
  lockedOnSending := none
  sendQueue := []
  sendingSeq := sendingSeq
  sendQueueCnt := 0
  chunksOnOutQueue := 0
  streamQueueCnt := 0
  prSctpCnt := 0
  totalOutputQueueSize := 0

def freshState (sendingSeq : Tsn) : FillState := ⟨freshAssoc sendingSeq, 0⟩

end Sctp
