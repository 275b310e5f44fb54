import Sctp.Receiver.State

/-! What happens to a control on its stream: queueing, reassembly and delivery to the read
queue. -/
namespace Sctp

namespace RecvAsoc

def countIn (asoc : RecvAsoc) (control : Control) : RecvAsoc :=
  { asoc with
    sizeOnAllStreams := asoc.sizeOnAllStreams + control.length
    cntOnAllStreams := asoc.cntOnAllStreams + 1 }

def countOut (asoc : RecvAsoc) (control : Control) : RecvAsoc :=
  { asoc with
    sizeOnAllStreams := asoc.sizeOnAllStreams - control.length
    cntOnAllStreams := asoc.cntOnAllStreams - 1 }

end RecvAsoc

/-- The place of a control on `inqueue`; nothing if its `msg_id` is there already. -/
def insertByMsgId (control : Control) : List Control → Option (List Control)
  | [] => some [control]
  | c :: q =>
    if tsnGt c.msgId control.msgId then some (control :: c :: q)
    else if c.msgId = control.msgId then none
    else (insertByMsgId control q).map (c :: ·)

/-- `sctp_place_control_in_stream` on `uno_inqueue`. -/
def placeUnordered (s : StreamRx) (control : Control) : Except Fault StreamRx :=
  if control.oldData then
    if s.strm.unoInqueue.head?.any (·.oldData) then .error .crash
    else .ok { s with strm := { s.strm with unoInqueue := control :: s.strm.unoInqueue } }
  else .ok { s with strm := { s.strm with unoInqueue := s.strm.unoInqueue ++ [control] } }

def wholeControl (control : Control) : Control :=
  if control.sinfoFlags.notFrag then
    { control with endAdded := true, lastFragSeen := true, firstFragSeen := true }
  else control

/-- `sctp_place_control_in_stream`; the flag says that the control was a duplicate and is gone. -/
def placeControlInStream (s : StreamRx) (control : Control) : Except Fault (StreamRx × Bool) :=
  if control.sinfoFlags.unordered then (placeUnordered s control).map (·, false)
  else
    match insertByMsgId (wholeControl control) s.strm.inqueue with
    | some q => .ok ({ s with strm := { s.strm with inqueue := q } }, false)
    | none => .ok ({ s with toRecvAsoc := s.toRecvAsoc.countOut (wholeControl control) }, true)

/-- A whole message goes to the read queue as the next one of its stream. -/
def deliverSingle (cfg : RecvConfig) (s : StreamRx) (control : Control) : StreamRx :=
  { toRecvAsoc := RecvAsoc.addToReadq
      { s.toRecvAsoc with
        toTsnMap := s.toTsnMap.markNonRevokable cfg.doDrain control.sinfoTsn } control true
    strm := { s.strm with lastSequenceDelivered := s.strm.lastSequenceDelivered + 1 } }

/-- The whole messages at the front of `inqueue` that are next go to the read queue. The flag asks
for a look at the reassembly. -/
def drainInqueue (cfg : RecvConfig) : List Control → StreamRx → StreamRx × Bool
  | [], s => ({ s with strm := { s.strm with inqueue := [] } }, false)
  | control :: q, s =>
    if s.strm.lastSequenceDelivered + 1 = control.sinfoSsn then
      if control.sinfoFlags.notFrag then
        drainInqueue cfg q
          (deliverSingle cfg { s with toRecvAsoc := s.toRecvAsoc.countOut control } control)
      else ({ s with strm := { s.strm with inqueue := control :: q } }, true)
    else ({ s with strm := { s.strm with inqueue := control :: q } }, false)

def queueDataToStream (cfg : RecvConfig) (s : StreamRx) (control : Control) :
    Except Fault (StreamRx × Bool) :=
  if ssnGe s.strm.lastSequenceDelivered control.sinfoSsn || tsnGe s.cumulativeTsn control.sinfoTsn
  then .error (.abort .loc2 control.sinfoTsn control.sinfoStream control.sinfoSsn)
  else
    let s := { s with toRecvAsoc := s.toRecvAsoc.countIn control }
    if s.strm.lastSequenceDelivered + 1 = control.sinfoSsn then
      let s := deliverSingle cfg { s with toRecvAsoc := s.toRecvAsoc.countOut control } control
      .ok (drainInqueue cfg s.strm.inqueue s)
    else (placeControlInStream s control).map fun r => (r.1, false)

/-- The chunks from the front on with consecutive `fsn_num`, up to a last fragment. -/
def scanRun : BitVec 32 → List RecvChunk → List RecvChunk × Bool
  | _, [] => ([], false)
  | fsn, chk :: q =>
    if chk.fsn = fsn then
      if chk.rcvFlags.last then ([chk], true)
      else (chk :: (scanRun (fsn + 1) q).1, (scanRun (fsn + 1) q).2)
    else ([], false)

/-- The chunks that are moved when the run of `k` chunks at the front is: the loop looks for the
last one behind the first only. -/
def pulled (k : ℕ) (reasm : List RecvChunk) : ℕ := if k = 1 then reasm.length else k

def mergeNew (cfg : RecvConfig) (s : StreamRx) (chks : List RecvChunk) (chk : RecvChunk) :
    StreamRx × Control :=
  ({ s with
      toRecvAsoc := { chks.foldl (RecvAsoc.merged cfg.doDrain) s.toRecvAsoc with
        nextId := s.nextId + 1 } },
    chks.foldl Control.merge (buildReadqEntryChk s.nextId chk))

def buildOneUpTo (cfg : RecvConfig) (s : StreamRx) (chks : List RecvChunk) (fchk : RecvChunk) :
    StreamRx :=
  let (s, nctl) := mergeNew cfg s chks fchk
  let nctl := { nctl with endAdded := true, lastFragSeen := true, firstFragSeen := true }
  { s with toRecvAsoc := s.toRecvAsoc.addToReadq nctl nctl.endAdded }

/-- `sctp_build_pd_unordered` and the start of partial delivery. -/
def buildPdUnordered (cfg : RecvConfig) (s : StreamRx) (chks : List RecvChunk)
    (fchk : RecvChunk) : StreamRx :=
  let (s, control) := mergeNew cfg s chks fchk
  { toRecvAsoc := s.toRecvAsoc.addToReadq control control.endAdded
    strm := { s.strm with
      unoPd := some (RecvAsoc.readqControl control control.endAdded)
      pdApiStarted := true } }

/-- Chunks that follow are merged into a control, until it is complete. -/
def appendRun (cfg : RecvConfig) : List RecvChunk → RecvAsoc → Control →
    List RecvChunk × RecvAsoc × Control
  | [], asoc, control => ([], asoc, control)
  | chk :: q, asoc, control =>
    if chk.fsn = control.fsnIncluded + 1 then
      let asoc := asoc.merged cfg.doDrain chk
      let control := control.merge chk
      if control.endAdded then (q, asoc, control) else appendRun cfg q asoc control
    else (chk :: q, asoc, control)

/-- More of the message that is delivered in parts. -/
def appendPd (cfg : RecvConfig) (s : StreamRx) (pd : Control) (reasm : List RecvChunk) :
    List RecvChunk × StreamRx :=
  let (reasm, asoc, pd) := appendRun cfg reasm s.toRecvAsoc pd
  (reasm,
    { toRecvAsoc := asoc.putRead pd
      strm := { s.strm with
        unoPd := if pd.endAdded then none else some pd
        pdApiStarted := s.strm.pdApiStarted && !pd.endAdded } })

/-- The loop of `sctp_handle_old_data` over the reassembly list. Every round takes a chunk off it,
so its length is enough fuel. -/
def handleOldDataLoop (cfg : RecvConfig) : ℕ → List RecvChunk → StreamRx →
    List RecvChunk × StreamRx
  | 0, reasm, s => (reasm, s)
  | _ + 1, [], s => ([], s)
  | fuel + 1, fchk :: rest, s =>
    match s.strm.unoPd with
    | none =>
      if !fchk.rcvFlags.first then (fchk :: rest, s)
      else
        let run := scanRun fchk.fsn (fchk :: rest)
        let k := pulled run.1.length (fchk :: rest)
        if run.2 then
          handleOldDataLoop cfg fuel ((fchk :: rest).drop k)
            (buildOneUpTo cfg s ((fchk :: rest).take k) fchk)
        else if cfg.pdPoint < (run.1.map (·.data.length)).sum ∧ s.strm.pdApiStarted = false then
          ((fchk :: rest).drop k, buildPdUnordered cfg s ((fchk :: rest).take k) fchk)
        else (fchk :: rest, s)
    | some pd =>
      let r := appendPd cfg s pd (fchk :: rest)
      if r.2.strm.unoPd.isNone then handleOldDataLoop cfg fuel r.1 r.2 else r

def handleOldData (cfg : RecvConfig) (s : StreamRx) (control : Control) : StreamRx :=
  let r := handleOldDataLoop cfg (control.reasm.length + 1) control.reasm s
  r.2.put { control with reasm := r.1 }

/-- The unordered messages of the format with `fsn`. -/
def deliverUnordered (cfg : RecvConfig) :
    List Control → StreamRx → Except Fault (List Control × StreamRx)
  | [], s => .ok ([], s)
  | control :: q, s =>
    if control.endAdded then
      deliverUnordered cfg q
        (if control.onReadQ then s
          else { s with toRecvAsoc := s.toRecvAsoc.addToReadq control control.endAdded })
    else if control.length < cfg.pdPoint ∧ s.strm.pdApiStarted = false then
      -- before its first fragment has come the control is freed, and stays on its queue
      if control.data = [] then .error .crash
      else .ok (RecvAsoc.readqControl control control.endAdded :: q,
        { toRecvAsoc := s.toRecvAsoc.addToReadq control control.endAdded
          strm := { s.strm with pdApiStarted := true } })
    else (deliverUnordered cfg q s).map fun r => (control :: r.1, r.2)

/-- The control goes to the read queue as the next message of its stream. -/
def deliverNext (cfg : RecvConfig) (s : StreamRx) (control : Control) : StreamRx :=
  { toRecvAsoc := RecvAsoc.addToReadq
      { s.toRecvAsoc with
        toTsnMap := if control.sinfoFlags.notFrag then
          s.toTsnMap.markNonRevokable cfg.doDrain control.sinfoTsn else s.toTsnMap }
      control control.endAdded
    strm := { s.strm with lastSequenceDelivered := s.strm.lastSequenceDelivered + 1 } }

/-- The control can go to the read queue now: it is next, and complete or long enough. -/
def deliverable (cfg : RecvConfig) (s : StreamRx) (control : Control) : Bool :=
  decide (control.sinfoSsn = s.strm.lastSequenceDelivered + 1) && control.firstFragSeen &&
    (control.sinfoFlags.notFrag || control.endAdded || decide (cfg.pdPoint ≤ control.length))

/-- The loop `deliver_more` over `inqueue`. The first control is taken off when its partial delivery
is complete; after that `nctl` lags behind, and the test is made on a control that is gone already.
Returns the number of messages taken off for delivery. -/
def deliverMore (cfg : RecvConfig) : Bool → List Control → StreamRx → StreamRx × ℕ
  | _, [], s => ({ s with strm := { s.strm with inqueue := [] } }, 0)
  | lag, control :: q, s =>
    let done := !lag && s.strm.lastSequenceDelivered == control.sinfoSsn && control.endAdded
    if s.strm.pdApiStarted then
      ({ s with strm := { s.strm with inqueue := if done then q else control :: q } }, 0)
    else if done then deliverMore cfg true q s
    else if deliverable cfg s control then
      let s' := deliverNext cfg s control
      if control.endAdded then
        if control.lastFragSeen then
          ((deliverMore cfg lag q s').1, (deliverMore cfg lag q s').2 + 1)
        else ({ s' with strm := { s'.strm with inqueue := q, pdApiStarted := true } }, 1)
      else
        ({ s' with strm := { s'.strm with
            inqueue := RecvAsoc.readqControl control control.endAdded :: q
            pdApiStarted := true } }, 0)
    else ({ s with strm := { s.strm with inqueue := control :: q } }, 0)

/-- The rest of `uno_inqueue` behind the first `k` controls is delivered as far as possible. -/
def deliverUnorderedFrom (cfg : RecvConfig) (k : ℕ) (s : StreamRx) : Except Fault StreamRx :=
  (deliverUnordered cfg (s.strm.unoInqueue.drop k) s).map fun r =>
    { r.2 with strm := { r.2.strm with unoInqueue := s.strm.unoInqueue.take k ++ r.1 } }

def deliverReasmCheck (cfg : RecvConfig) (s : StreamRx) : Except Fault (StreamRx × ℕ) :=
  let old := s.strm.unoInqueue.head?.filter (·.oldData)
  let s := match old with
    | some control => handleOldData cfg s control
    | none => s
  let k := if old.isSome then 1 else 0
  if (s.strm.unoInqueue.drop k).head?.any (·.oldData) then .error .crash
  else if s.strm.pdApiStarted then .ok (s, 0)
  else (deliverUnorderedFrom cfg k s).map fun s => deliverMore cfg false s.strm.inqueue s

/-- The place of a fragment on a reassembly list; nothing if its `fsn_num` is there already. -/
def insertByFsn (chk : RecvChunk) : List RecvChunk → Option (List RecvChunk)
  | [] => some [chk]
  | at' :: q =>
    if tsnGt at'.fsn chk.fsn then some (chk :: at' :: q)
    else if at'.fsn = chk.fsn then none
    else (insertByFsn chk q).map (at' :: ·)

/-- A fragment is put on the reassembly list of its control, or dropped as a duplicate. The flag
says that it is on the list. -/
def queueFragment (s : StreamRx) (control : Control) (chk : RecvChunk) : StreamRx × Control × Bool :=
  match insertByFsn chk control.reasm with
  | some q => ({ s with toRecvAsoc := s.toRecvAsoc.queued chk }, { control with reasm := q }, true)
  | none => (s, control, false)

/-- The fragments that are next move from the reassembly list into the control. The partial
delivery of the control ends with its last one. -/
def suckUp (cfg : RecvConfig) : List RecvChunk → StreamRx → Control → StreamRx × Control
  | [], s, control => (s, { control with reasm := [] })
  | chk :: q, s, control =>
    if chk.fsn = control.fsnIncluded + 1 then
      let control := control.merge chk
      suckUp cfg q
        { toRecvAsoc := s.toRecvAsoc.merged cfg.doDrain chk
          strm := { s.strm with
            pdApiStarted := s.strm.pdApiStarted && !(control.onReadQ && control.endAdded) } }
        control
    else (s, { control with reasm := chk :: q })

def firstFragment (cfg : RecvConfig) (s : StreamRx) (control : Control) (chk : RecvChunk) :
    StreamRx × Control :=
  ({ s with
      toRecvAsoc := { s.toRecvAsoc with
        toTsnMap := s.toTsnMap.markNonRevokable cfg.doDrain chk.tsn } },
    { control with
      firstFragSeen := true
      fsnIncluded := chk.fsn
      data := chk.data
      length := chk.data.length })

/-- What a later fragment says about the end of the message; nothing if it contradicts it. -/
def noteLast (control : Control) (chk : RecvChunk) : Except AbortSpot Control :=
  if !control.lastFragSeen then
    .ok { control with
      topFsn := if tsnGt chk.fsn control.topFsn then chk.fsn else control.topFsn
      lastFragSeen := chk.rcvFlags.last }
  else if chk.rcvFlags.last then .error .loc5
  else if tsnGt chk.fsn control.topFsn then .error .loc6
  else .ok control

/-- The part of `sctp_queue_data_for_reasm` behind the special handling of the old format. -/
def reassemble (cfg : RecvConfig) (s : StreamRx) (control : Control) (chk : RecvChunk) :
    Except AbortSpot StreamRx :=
  if chk.rcvFlags.first then
    if control.firstFragSeen then .error .loc4
    else
      let (s, control) := firstFragment cfg s control chk
      let (s, control) := suckUp cfg control.reasm s control
      .ok (s.put control)
  else
    (noteLast control chk).map fun control =>
      let (s, control, queued) := queueFragment s control chk
      if queued && control.firstFragSeen then
        let (s, control) := suckUp cfg control.reasm s control
        s.put control
      else s.put control

def queueDataForReasm (cfg : RecvConfig) (s : StreamRx) (control : Control) (chk : RecvChunk)
    (createdControl : Bool) : Except Fault StreamRx := do
  let fault := fun spot => Fault.abort spot chk.tsn chk.streamNumber chk.streamSeq
  let (s, duplicate) ← if createdControl then placeControlInStream s control else .ok (s, false)
  if duplicate then .ok s
  else if createdControl && chk.tsn == s.cumulativeTsn + 1 && !chk.rcvFlags.first then
    .error (fault .loc3)
  else if control.oldData && control.sinfoFlags.unordered then
    let (s, control, _) := queueFragment s control chk
    .ok (s.put control)
  else (reassemble cfg s control chk).mapError fault

end Sctp
