import Sctp.Receiver.Order
import Sctp.Receiver.Message

/-! What reaches the user is what the peer sent: a message that is given to the user as complete is one of
the peer's, byte for byte, however its fragments arrived. -/
namespace Sctp
open Bitmap

/-- The controls of a stream hold parts of messages. -/
structure StreamIn.Intact (messages : List Message) (strm : StreamIn) : Prop where
  inqueue : ∀ c ∈ strm.inqueue, c.Stays messages
  unoInqueue : ∀ c ∈ strm.unoInqueue, c.Stays messages
  unoPd : ∀ c ∈ strm.unoPd, ∃ m, c.Partial messages m

/-- The controls of a stream and of the read queue hold parts of messages. -/
structure StreamRx.Intact (messages : List Message) (s : StreamRx) : Prop where
  read : ∀ d ∈ s.readQueue, d.Intact messages
  strm : s.strm.Intact messages

section

variable {cfg : RecvConfig} {messages : List Message} {names : ℕ → MsgKey} {strmno : StreamNo} {u : Bool}

theorem RecvAsoc.addToReadq_intact {asoc : RecvAsoc} {control : Control} {last : Bool}
    (hread : ∀ d ∈ asoc.readQueue, d.Intact messages)
    (hc : (RecvAsoc.readqControl control last).Intact messages) :
    ∀ d ∈ (asoc.addToReadq control last).readQueue, d.Intact messages := by
  unfold RecvAsoc.addToReadq
  split
  · exact hread
  · intro d hd
    obtain hd | hd := List.mem_append.1 hd
    · exact hread d hd
    · exact List.mem_singleton.1 hd ▸ hc

/-- A write to a control of the stream reaches the control that is delivered in parts only if it is that
one. -/
theorem StreamRx.Intact.put {s : StreamRx} {c : Control} (hi : s.Intact messages)
    (hk : s.Keyed names strmno) (hd : DistinctTsns messages) (hc : c.Stays messages)
    (hp : c.Placed names s.nextId strmno u) : (s.put c).Intact messages := by
  refine ⟨fun d hd => ?_, fun d hd => ?_, fun d hd => ?_, fun d hmem => ?_⟩
  · obtain ⟨x, hx, rfl⟩ := List.mem_map.1 hd
    exact hc.intact.put (hi.read x hx)
  · obtain ⟨x, hx, rfl⟩ := List.mem_map.1 hd
    exact hc.put (hi.strm.inqueue x hx)
  · obtain ⟨x, hx, rfl⟩ := List.mem_map.1 hd
    exact hc.put (hi.strm.unoInqueue x hx)
  · obtain ⟨x, hx, rfl⟩ := Option.map_eq_some_iff.1 hmem
    obtain ⟨m, hpd⟩ := hi.strm.unoPd x hx
    unfold Control.put
    split
    · rename_i hid
      exfalso
      have hplaced := hk.strm.unoPd x hx
      have hkey : c.key = x.key := by rw [hp.named.2, hplaced.named.2, hid]
      have hold : c.oldData = x.oldData := congrArg MsgKey.oldData hkey
      have htsn : c.sinfoTsn = x.sinfoTsn := congrArg MsgKey.tsn hkey
      obtain ⟨m', hm', hnew, hwaits⟩ | hgathers := hc
      · have hunordered : c.sinfoFlags.unordered = x.sinfoFlags.unordered :=
          congrArg MsgKey.unordered hkey
        have hsome := hnew (by rw [← hwaits.unordered, hunordered, hplaced.flag])
        have hnone := hwaits.oldData
        rw [hold, hpd.oldData] at hnone
        obtain ⟨i, hi, htsn'⟩ := hwaits.tsn
        obtain ⟨j, hj, htsn''⟩ := hpd.tsn
        obtain ⟨rfl, -⟩ := hd m' hm' m hpd.mem i hi j hj (by rw [← htsn', ← htsn'', htsn])
        rw [hpd.old] at hsome
        cases hsome
      · rw [hgathers.oldData, hpd.oldData] at hold
        cases hold
    · exact ⟨m, hpd⟩

/-- Nothing is done to the queues but what is said of them. -/
theorem StreamRx.Intact.requeued {s : StreamRx} (hi : s.Intact messages) {strm : StreamIn}
    (hstrm : strm.Intact messages) : StreamRx.Intact messages { s with strm := strm } :=
  ⟨hi.read, hstrm⟩

theorem drainInqueue_intact {q : List Control} {s : StreamRx} (hi : s.Intact messages)
    (hq : ∀ c ∈ q, c.Stays messages) : (drainInqueue cfg q s).1.Intact messages := by
  induction q generalizing s with
  | nil =>
    have hnone : ∀ c ∈ ([] : List Control), c.Stays messages := fun c hc => absurd hc List.not_mem_nil
    exact hi.requeued ⟨hnone, hi.strm.unoInqueue, hi.strm.unoPd⟩
  | cons control q ih =>
    have hstay : StreamRx.Intact messages { s with strm := { s.strm with inqueue := control :: q } } :=
      hi.requeued ⟨hq, hi.strm.unoInqueue, hi.strm.unoPd⟩
    unfold drainInqueue
    split
    · split
      · rename_i hwhole
        have hread := (hq control List.mem_cons_self).readqWhole hwhole
        apply ih
        · exact ⟨RecvAsoc.addToReadq_intact hi.read hread, hi.strm.inqueue, hi.strm.unoInqueue,
            hi.strm.unoPd⟩
        · exact fun c hc => hq c (List.mem_cons_of_mem control hc)
      · exact hstay
    · exact hstay

theorem wholeControl_stays {control : Control} (h : control.Stays messages) :
    (wholeControl control).Stays messages := by
  unfold wholeControl
  split
  · rename_i hwhole
    obtain ⟨m, hm, hnew, hwaits⟩ | hgathers := h
    · have hone := hwaits.notFrag.1 hwhole
      have hsplit : ¬m.Split := fun hsplit => absurd hone hsplit.ne'
      obtain ⟨k, hhas⟩ := hwaits.has
      refine .inl ⟨m, hm, hnew, hwaits.again rfl rfl hwaits.reasm ⟨k, hhas.le, hhas.data, ?_, ?_, ?_, ?_, ?_⟩⟩
      · exact fun _ => hhas.whole hsplit
      · exact fun h => absurd h hsplit
      · exact fun h => absurd h hsplit
      · exact fun h => absurd h hsplit
      · exact hhas.whole
    · rw [hgathers.notFrag] at hwhole
      cases hwhole
  · exact h

theorem placeControlInStream_intact {s : StreamRx} {control : Control} {r : StreamRx × Bool}
    (hi : s.Intact messages) (hc : control.Stays messages)
    (h : placeControlInStream s control = .ok r) : r.1.Intact messages := by
  unfold placeControlInStream at h
  split at h
  · obtain ⟨t, ht, rfl⟩ := Attempt.map_ok h
    unfold placeUnordered at ht
    split_ifs at ht
    · cases ht
      refine hi.requeued ⟨hi.strm.inqueue, fun c hmem => ?_, hi.strm.unoPd⟩
      obtain rfl | hmem := List.mem_cons.1 hmem
      · exact hc
      · exact hi.strm.unoInqueue c hmem
    · cases ht
      refine hi.requeued ⟨hi.strm.inqueue, fun c hmem => ?_, hi.strm.unoPd⟩
      obtain hmem | hmem := List.mem_append.1 hmem
      · exact hi.strm.unoInqueue c hmem
      · exact List.mem_singleton.1 hmem ▸ hc
  · split at h
    · rename_i q hq
      cases h
      refine hi.requeued ⟨fun c hmem => ?_, hi.strm.unoInqueue, hi.strm.unoPd⟩
      obtain rfl | hmem := mem_insertByMsgId hq hmem
      · exact wholeControl_stays hc
      · exact hi.strm.inqueue c hmem
    · cases h
      exact ⟨hi.read, hi.strm⟩

theorem queueDataToStream_intact {s : StreamRx} {control : Control} {r : StreamRx × Bool}
    (hi : s.Intact messages) (hc : control.Stays messages) (hwhole : control.sinfoFlags.notFrag = true)
    (h : queueDataToStream cfg s control = .ok r) : r.1.Intact messages := by
  unfold queueDataToStream at h
  dsimp only at h
  split at h
  · cases h
  · split at h
    · cases h
      exact drainInqueue_intact
        ⟨RecvAsoc.addToReadq_intact hi.read (hc.readqWhole hwhole), hi.strm.inqueue, hi.strm.unoInqueue,
          hi.strm.unoPd⟩ hi.strm.inqueue
    · obtain ⟨x, hx, heq⟩ := Attempt.map_ok h
      rw [← heq]
      exact placeControlInStream_intact (r := x) (s := { s with toRecvAsoc := s.toRecvAsoc.countIn control })
        ⟨hi.read, hi.strm⟩ hc hx

/-- The fragments of the message from the `n`th on. -/
def Consecutive (m : Message) : ℕ → List RecvChunk → Prop
  | _, [] => True
  | n, chk :: q => chk.PartOf m n ∧ Consecutive m (n + 1) q

/-- The fragment whose `fsn` is next in the message. -/
theorem RecvChunk.OldPart.next (hd : DistinctTsns messages) {chk : RecvChunk}
    (hchk : chk.OldPart messages) {m : Message} (hm : m ∈ messages) (hold : m.msgId = none) {n : ℕ}
    (hn : n < m.parts.length) (hfsn : chk.fsn = m.fsn n) : chk.PartOf m n := by
  obtain ⟨m', hm', -, hold', -, i, hpart⟩ := hchk
  have hi := (List.getElem?_eq_some_iff.1 hpart.data).1
  have htsn : m'.tsn i = m.tsn n := by
    have h : m'.fsn i = m.fsn n := hpart.fsn.symm.trans hfsn
    simpa [Message.fsn, hold, hold'] using h
  obtain ⟨rfl, rfl⟩ := hd m' hm' m hm i hi n hn htsn
  exact hpart

/-- The run that is found is of one message, and it is found whole if it ends. -/
theorem scanRun_consecutive (hd : DistinctTsns messages) {m : Message} (hm : m ∈ messages)
    (hold : m.msgId = none) {q : List RecvChunk} (hq : ∀ chk ∈ q, chk.OldPart messages) {n : ℕ}
    (hn : n < m.parts.length) :
    (scanRun (m.fsn n) q).1 = q.take (scanRun (m.fsn n) q).1.length ∧
      Consecutive m n (scanRun (m.fsn n) q).1 ∧
      ((scanRun (m.fsn n) q).2 = true → n + (scanRun (m.fsn n) q).1.length = m.parts.length) ∧
      ((scanRun (m.fsn n) q).2 = false → n + (scanRun (m.fsn n) q).1.length < m.parts.length) := by
  induction q generalizing n with
  | nil => exact ⟨rfl, trivial, fun h => (nomatch h), fun _ => hn⟩
  | cons chk q ih =>
    unfold scanRun
    split
    · rename_i hfsn
      have hpart := (hq chk List.mem_cons_self).next hd hm hold hn hfsn
      split
      · rename_i hlast
        rw [hpart.last, decide_eq_true_iff] at hlast
        exact ⟨rfl, ⟨hpart, trivial⟩, fun _ => hlast, fun h => (nomatch h)⟩
      · rename_i hmore
        rw [hpart.last, decide_eq_true_iff] at hmore
        rw [← m.fsn_succ]
        obtain ⟨htake, hrun, hended, hopen⟩ :=
          ih (fun x hx => hq x (List.mem_cons_of_mem chk hx)) (n := n + 1) (by omega)
        refine ⟨?_, ⟨hpart, hrun⟩, fun h => ?_, fun h => ?_⟩
        · rw [List.length_cons, List.take_succ_cons, ← htake]
        · have := hended h
          rw [List.length_cons]
          omega
        · have := hopen h
          rw [List.length_cons]
          omega
    · exact ⟨rfl, trivial, fun h => (nomatch h), fun _ => hn⟩

theorem foldl_merge_has {m : Message} (hsplit : m.Split) {chks : List RecvChunk} {c : Control} {n : ℕ}
    (hc : c.Has m n) (hchks : Consecutive m n chks) :
    (chks.foldl Control.merge c).Has m (n + chks.length) := by
  induction chks generalizing c n with
  | nil => exact hc
  | cons chk chks ih =>
    have hlen : n + (chk :: chks).length = n + 1 + chks.length := by
      rw [List.length_cons]
      omega
    rw [hlen]
    exact ih (hc.merge hsplit hchks.1) hchks.2

/-- The control that is made of a run. -/
theorem mergeNew_has (cfg : RecvConfig) (s : StreamRx) (fchk : RecvChunk) {m : Message}
    (hsplit : m.Split) {chks : List RecvChunk} (hchks : Consecutive m 0 chks) :
    (mergeNew cfg s chks fchk).2.Has m chks.length := by
  have hnew : (buildReadqEntryChk s.nextId fchk).Has m 0 := .none hsplit rfl rfl rfl
  have h := foldl_merge_has hsplit hnew hchks
  rwa [Nat.zero_add] at h

theorem foldl_merge_key (chks : List RecvChunk) (c : Control) :
    (chks.foldl Control.merge c).key = c.key ∧
      (chks.foldl Control.merge c).sinfoFlags = c.sinfoFlags := by
  induction chks generalizing c with
  | nil => exact ⟨rfl, rfl⟩
  | cons chk chks ih => exact ih (c.merge chk)

/-- What a new control says of itself. -/
theorem mergeNew_key (cfg : RecvConfig) (s : StreamRx) (chks : List RecvChunk) (fchk : RecvChunk) :
    (mergeNew cfg s chks fchk).2.key = (buildReadqEntryChk s.nextId fchk).key :=
  (foldl_merge_key chks _).1

theorem mergeNew_carries (cfg : RecvConfig) {s : StreamRx} {m : Message} (hsplit : m.Split) {chks : List RecvChunk}
    {fchk : RecvChunk} (hchks : Consecutive m 0 chks) (hfchk : fchk.PartOf m 0) :
    (mergeNew cfg s chks fchk).2.Carries m := by
  have hkey := mergeNew_key cfg s chks fchk
  exact ⟨(congrArg MsgKey.stream hkey).trans hfchk.streamNumber,
    (congrArg MsgKey.ssn hkey).trans hfchk.streamSeq,
    (congrArg MsgKey.unordered hkey).trans hfchk.unordered,
    ⟨0, m.nonempty, (congrArg MsgKey.tsn hkey).trans hfchk.tsn⟩, _, mergeNew_has cfg s fchk hsplit hchks⟩

theorem mergeNew_intact (cfg : RecvConfig) {s : StreamRx} (hi : s.Intact messages) (chks : List RecvChunk)
    (fchk : RecvChunk) : (mergeNew cfg s chks fchk).1.Intact messages := by
  obtain ⟨hread, -⟩ := foldl_merged_same cfg.doDrain chks s.toRecvAsoc
  refine ⟨fun d hd => ?_, hi.strm⟩
  change d ∈ (chks.foldl (RecvAsoc.merged cfg.doDrain) s.toRecvAsoc).readQueue at hd
  rw [hread] at hd
  exact hi.read d hd

theorem buildOneUpTo_intact {s : StreamRx} (hi : s.Intact messages) {m : Message} (hm : m ∈ messages)
    (hsplit : m.Split) {chks : List RecvChunk} {fchk : RecvChunk} (hchks : Consecutive m 0 chks)
    (hfchk : fchk.PartOf m 0) (hlen : chks.length = m.parts.length) :
    (buildOneUpTo cfg s chks fchk).Intact messages := by
  have hnew := mergeNew_intact cfg hi chks fchk
  have hcarries := mergeNew_carries cfg (s := s) hsplit hchks hfchk
  have hhas := mergeNew_has cfg s fchk hsplit hchks
  refine ⟨RecvAsoc.addToReadq_intact hnew.read (.inr ⟨m, hm, ?_⟩), hnew.strm⟩
  refine ⟨hcarries.stream, hcarries.ssn, hcarries.unordered, hcarries.tsn, chks.length, ?_⟩
  have hpos := m.nonempty
  refine ⟨hhas.le, hhas.data, fun _ => hlen, fun _ _ => rfl, hhas.fsn, fun _ => ?_, hhas.whole⟩
  exact ⟨fun _ => hlen ▸ hpos, fun _ => rfl⟩

/-- What is merged into a control in parts, and what is left. -/
theorem appendRun_has (cfg : RecvConfig) (hd : DistinctTsns messages) {m : Message} (hm : m ∈ messages)
    (hold : m.msgId = none) (hsplit : m.Split) {q : List RecvChunk} (asoc : RecvAsoc)
    {control : Control} {k : ℕ} (hhas : control.Has m (k + 1)) (hopen : control.endAdded = false)
    (hq : ∀ chk ∈ q, chk.OldPart messages) :
    (∃ k', (appendRun cfg q asoc control).2.2.Has m (k' + 1)) ∧
      (appendRun cfg q asoc control).2.2.key = control.key ∧
      (appendRun cfg q asoc control).2.2.sinfoFlags = control.sinfoFlags ∧
      (∀ chk ∈ (appendRun cfg q asoc control).1, chk.OldPart messages) := by
  induction q generalizing asoc control k with
  | nil => exact ⟨⟨k, hhas⟩, rfl, rfl, hq⟩
  | cons chk q ih =>
    have hrest : ∀ x ∈ q, x.OldPart messages := fun x hx => hq x (List.mem_cons_of_mem chk hx)
    unfold appendRun
    split
    · rename_i hfsn
      have hlt : k + 1 < m.parts.length := by
        refine lt_of_le_of_ne hhas.le fun hk => ?_
        rw [hhas.opened hsplit hk] at hopen
        cases hopen
      rw [hhas.fsn hsplit k rfl, ← m.fsn_succ] at hfsn
      have hmerged := hhas.merge hsplit ((hq chk List.mem_cons_self).next hd hm hold hlt hfsn)
      dsimp only
      split
      · exact ⟨⟨k + 1, hmerged⟩, rfl, rfl, hrest⟩
      · rename_i hmore
        exact ih (asoc.merged cfg.doDrain chk) hmerged (Bool.eq_false_iff.2 hmore) hrest
    · exact ⟨⟨k, hhas⟩, rfl, rfl, hq⟩

/-- The message that is delivered in parts. -/
theorem Control.Partial.again {c c' : Control} {m : Message} (h : c.Partial messages m)
    (hkey : c'.key = c.key) {k : ℕ} (hhas : c'.Has m (k + 1)) :
    c'.Carries m ∧ (c'.endAdded = false → c'.Partial messages m) := by
  have hstream : c'.sinfoStream = c.sinfoStream := congrArg MsgKey.stream hkey
  have hssn : c'.sinfoSsn = c.sinfoSsn := congrArg MsgKey.ssn hkey
  have hunordered : c'.sinfoFlags.unordered = c.sinfoFlags.unordered := congrArg MsgKey.unordered hkey
  have htsn : c'.sinfoTsn = c.sinfoTsn := congrArg MsgKey.tsn hkey
  have hold : c'.oldData = c.oldData := congrArg MsgKey.oldData hkey
  have hcarries : c'.Carries m :=
    ⟨hstream.trans h.stream, hssn.trans h.ssn, hunordered.trans h.unordered, htsn ▸ h.tsn, k + 1, hhas⟩
  refine ⟨hcarries, fun hended => ⟨hcarries, h.mem, h.old, h.split, ?_, hended, hold.trans h.oldData⟩⟩
  exact (hhas.seen h.split).2 (Nat.succ_pos k)

theorem appendRun_same (cfg : RecvConfig) (q : List RecvChunk) (asoc : RecvAsoc) (control : Control) :
    (appendRun cfg q asoc control).2.1.readQueue = asoc.readQueue := by
  induction q generalizing asoc control with
  | nil => rfl
  | cons chk q ih =>
    unfold appendRun
    split
    · dsimp only
      split
      · rfl
      · exact ih (asoc.merged cfg.doDrain chk) (control.merge chk)
    · rfl

theorem appendPd_intact (cfg : RecvConfig) {s : StreamRx} (hi : s.Intact messages) (hd : DistinctTsns messages)
    {pd : Control} {m : Message} (hpd : pd.Partial messages m) {reasm : List RecvChunk}
    (hreasm : ∀ chk ∈ reasm, chk.OldPart messages) :
    (appendPd cfg s pd reasm).2.Intact messages ∧
      ∀ chk ∈ (appendPd cfg s pd reasm).1, chk.OldPart messages := by
  obtain ⟨k, hhas⟩ := hpd.has
  obtain ⟨j, rfl⟩ := Nat.exists_eq_add_of_lt ((hhas.seen hpd.split).1 hpd.begun)
  rw [Nat.zero_add] at hhas
  obtain ⟨⟨k', hmore⟩, hkey, -, hfits⟩ :=
    appendRun_has cfg hd hpd.mem hpd.old hpd.split s.toRecvAsoc hhas hpd.ended hreasm
  obtain ⟨hcarries, hstill⟩ := hpd.again hkey hmore
  have hread := (appendRun_same cfg reasm s.toRecvAsoc pd)
  refine ⟨⟨fun d hmem => ?_, hi.strm.inqueue, hi.strm.unoInqueue, fun c hmem => ?_⟩, hfits⟩
  · obtain ⟨x, hx, rfl⟩ := List.mem_map.1 hmem
    rw [hread] at hx
    exact Control.Intact.put (.inr ⟨m, hpd.mem, hcarries⟩) (hi.read x hx)
  · unfold appendPd at hmem
    dsimp only at hmem
    split at hmem
    · cases hmem
    · rename_i hended
      obtain rfl := Option.some.inj hmem
      exact ⟨m, hstill (Bool.eq_false_iff.2 hended)⟩

theorem buildPdUnordered_intact {s : StreamRx} (hi : s.Intact messages) {m : Message} (hm : m ∈ messages)
    (hold : m.msgId = none) (hsplit : m.Split) {chks : List RecvChunk} {fchk : RecvChunk}
    (hchks : Consecutive m 0 chks) (hfchk : fchk.PartOf m 0) (hpos : 0 < chks.length)
    (hlen : chks.length < m.parts.length) : (buildPdUnordered cfg s chks fchk).Intact messages := by
  have hnew := mergeNew_intact cfg hi chks fchk
  have hcarries := mergeNew_carries cfg (s := s) hsplit hchks hfchk
  have hhas := mergeNew_has cfg s fchk hsplit hchks
  have hkey := mergeNew_key cfg s chks fchk
  have hopen : (mergeNew cfg s chks fchk).2.endAdded = false :=
    Bool.eq_false_iff.2 fun hended => absurd (hhas.ended hended) hlen.ne
  have hread := hcarries.readq (mergeNew cfg s chks fchk).2.endAdded .inl
  refine ⟨RecvAsoc.addToReadq_intact hnew.read (.inr ⟨m, hm, hread⟩), hnew.strm.inqueue,
    hnew.strm.unoInqueue, fun c hmem => ?_⟩
  obtain rfl := Option.some.inj hmem
  refine ⟨m, hread, hm, hold, hsplit, (hhas.seen hsplit).2 hpos, ?_, congrArg MsgKey.oldData hkey⟩
  change ((mergeNew cfg s chks fchk).2.endAdded || (mergeNew cfg s chks fchk).2.endAdded) = false
  rw [hopen]
  rfl

/-- No fragment alone is long enough for a partial delivery. -/
def PartsFit (messages : List Message) (cfg : RecvConfig) : Prop :=
  ∀ m ∈ messages, m.unordered = true → m.msgId = none → ∀ part ∈ m.parts, part.length ≤ cfg.pdPoint

theorem handleOldDataLoop_intact (hd : DistinctTsns messages) (hfit : PartsFit messages cfg) (fuel : ℕ)
    {reasm : List RecvChunk} {s : StreamRx} (hi : s.Intact messages)
    (hreasm : ∀ chk ∈ reasm, chk.OldPart messages) :
    (handleOldDataLoop cfg fuel reasm s).2.Intact messages ∧
      ∀ chk ∈ (handleOldDataLoop cfg fuel reasm s).1, chk.OldPart messages := by
  induction fuel generalizing reasm s with
  | zero => exact ⟨hi, hreasm⟩
  | succ fuel ih =>
    cases reasm with
    | nil => exact ⟨hi, hreasm⟩
    | cons fchk rest =>
      unfold handleOldDataLoop
      split
      · split
        · exact ⟨hi, hreasm⟩
        · rename_i hfirst
          have hdrop : ∀ k, ∀ chk ∈ (fchk :: rest).drop k, chk.OldPart messages :=
            fun k chk hc => hreasm chk (List.mem_of_mem_drop hc)
          obtain ⟨m, hm, hunordered, hold, hsplit, i, hfchk⟩ := hreasm fchk List.mem_cons_self
          obtain rfl : i = 0 := by simpa [hfchk.first] using hfirst
          obtain ⟨htake, hrun, hended, hopen⟩ := scanRun_consecutive hd hm hold hreasm m.nonempty
          rw [← hfchk.fsn] at htake hrun hended hopen
          rw [Nat.zero_add] at hended hopen
          -- the search for the last one starts behind the first chunk, which goes wrong for a run of one
          have hpulled (hlen : (scanRun fchk.fsn (fchk :: rest)).1.length ≠ 1) :
              (fchk :: rest).take (pulled (scanRun fchk.fsn (fchk :: rest)).1.length (fchk :: rest)) =
                (scanRun fchk.fsn (fchk :: rest)).1 := by
            rw [pulled, if_neg hlen, ← htake]
          dsimp only
          split
          · rename_i hwhole
            have hlen := hended hwhole
            rw [hpulled (hlen ▸ hsplit.ne')]
            exact ih (buildOneUpTo_intact hi hm hsplit hrun hfchk hlen) (hdrop _)
          · rename_i hmore
            split
            · rename_i hlong
              have hlen : (scanRun fchk.fsn (fchk :: rest)).1.length ≠ 1 := by
                intro hone
                rw [hone] at htake
                rw [htake] at hlong
                have hsmall := hfit m hm hunordered hold fchk.data (List.mem_of_getElem? hfchk.data)
                simp at hlong
                omega
              rw [hpulled hlen]
              refine ⟨buildPdUnordered_intact hi hm hold hsplit hrun hfchk ?_
                (hopen (Bool.eq_false_iff.2 hmore)), hdrop _⟩
              unfold scanRun
              rw [if_pos rfl]
              split
              · exact Nat.zero_lt_one
              · exact Nat.succ_pos _
            · exact ⟨hi, hreasm⟩
      · rename_i pd hpd
        obtain ⟨m, hpartial⟩ := hi.strm.unoPd pd hpd
        obtain ⟨hmore, hfits⟩ := appendPd_intact cfg hi hd hpartial hreasm
        dsimp only
        split
        · exact ih hmore hfits
        · exact ⟨hmore, hfits⟩

/-- The control on which the fragments gather. -/
theorem Control.Stays.gathers {c : Control} (h : c.Stays messages)
    (hunordered : c.sinfoFlags.unordered = true) (hold : c.oldData = true) : c.Gathers messages := by
  obtain ⟨m, hm, hnew, hwaits⟩ | hgathers := h
  · exfalso
    have hsome := hnew (hwaits.unordered ▸ hunordered)
    rw [hwaits.oldData] at hold
    rw [← Option.not_isNone, hold] at hsome
    cases hsome
  · exact hgathers

theorem handleOldData_intact {s : StreamRx} (hi : s.Intact messages) (hk : s.Keyed names strmno)
    (hd : DistinctTsns messages) (hfit : PartsFit messages cfg) {control : Control}
    (hc : control ∈ s.strm.unoInqueue) (hold : control.oldData = true) :
    (handleOldData cfg s control).Intact messages := by
  have hplaced := hk.strm.unoInqueue control hc
  have hgathers := (hi.strm.unoInqueue control hc).gathers hplaced.flag hold
  obtain ⟨hloop, hfits⟩ := handleOldDataLoop_intact hd hfit (control.reasm.length + 1) hi hgathers.reasm
  obtain ⟨⟨names', hadvances⟩, hplacedReasm⟩ :=
    handleOldDataLoop_advances cfg (control.reasm.length + 1) hk hplaced.reasm
  have hlater := hplaced.mono hadvances.enters.nextId hadvances.agrees
  refine hloop.put hadvances.keyed hd (.inr ?_) (u := true) ?_
  · exact ⟨hgathers.oldData, hgathers.data, hgathers.ended, hgathers.notFrag, hgathers.unordered,
      hgathers.tsn, hfits⟩
  · exact ⟨hlater.named, hlater.stream, hlater.flag, hlater.data, hplacedReasm⟩

/-- A control that goes to the read queue stays on its stream too. -/
theorem Control.Stays.readq {c : Control} (h : c.Stays messages) :
    (RecvAsoc.readqControl c c.endAdded).Stays messages := by
  obtain ⟨m, hm, hnew, hwaits⟩ | hgathers := h
  · exact .inl ⟨m, hm, hnew, hwaits.again rfl rfl hwaits.reasm (hwaits.readq c.endAdded .inl).has⟩
  · refine .inr ⟨hgathers.oldData, hgathers.data, ?_, hgathers.notFrag, hgathers.unordered, hgathers.tsn,
      hgathers.reasm⟩
    change (c.endAdded || c.endAdded) = false
    rw [hgathers.ended]
    rfl

theorem deliverUnordered_intact {q : List Control} {s : StreamRx} {r : List Control × StreamRx}
    (hi : s.Intact messages) (hq : ∀ c ∈ q, c.Stays messages) (h : deliverUnordered cfg q s = .ok r) :
    r.2.Intact messages ∧ ∀ c ∈ r.1, c.Stays messages := by
  induction q generalizing s r with
  | nil =>
    cases h
    exact ⟨hi, hq⟩
  | cons control q ih =>
    have hc := hq control List.mem_cons_self
    have hrest : ∀ c ∈ q, c.Stays messages := fun c hc => hq c (List.mem_cons_of_mem control hc)
    have hread := RecvAsoc.addToReadq_intact hi.read hc.intact.readq
    unfold deliverUnordered at h
    split at h
    · refine ih ?_ hrest h
      split
      · exact hi
      · exact ⟨hread, hi.strm⟩
    · split at h
      · split at h
        · cases h
        · cases h
          refine ⟨⟨hread, hi.strm.inqueue, hi.strm.unoInqueue, hi.strm.unoPd⟩, fun c hmem => ?_⟩
          obtain rfl | hmem := List.mem_cons.1 hmem
          · exact hc.readq
          · exact hrest c hmem
      · obtain ⟨r', hr', rfl⟩ := Attempt.map_ok h
        obtain ⟨hmore, hleft⟩ := ih hi hrest hr'
        refine ⟨hmore, fun c hmem => ?_⟩
        obtain rfl | hmem := List.mem_cons.1 hmem
        · exact hc
        · exact hleft c hmem

theorem deliverMore_intact {q : List Control} {lag : Bool} {s : StreamRx} (hi : s.Intact messages)
    (hq : ∀ c ∈ q, c.Stays messages) : (deliverMore cfg lag q s).1.Intact messages := by
  induction q generalizing lag s with
  | nil =>
    have hnone : ∀ c ∈ ([] : List Control), c.Stays messages := fun c hc => absurd hc List.not_mem_nil
    exact hi.requeued ⟨hnone, hi.strm.unoInqueue, hi.strm.unoPd⟩
  | cons control q ih =>
    have hc := hq control List.mem_cons_self
    have hrest : ∀ c ∈ q, c.Stays messages := fun c hc => hq c (List.mem_cons_of_mem control hc)
    have hnext : (deliverNext cfg s control).Intact messages :=
      ⟨RecvAsoc.addToReadq_intact hi.read hc.intact.readq, hi.strm.inqueue, hi.strm.unoInqueue,
        hi.strm.unoPd⟩
    unfold deliverMore
    dsimp only
    split
    · refine hi.requeued ⟨fun c hmem => ?_, hi.strm.unoInqueue, hi.strm.unoPd⟩
      dsimp only at hmem
      split at hmem
      · exact hrest c hmem
      · exact hq c hmem
    · split
      · exact ih hi hrest
      · split
        · split
          · split
            · exact ih hnext hrest
            · exact hnext.requeued ⟨hrest, hi.strm.unoInqueue, hi.strm.unoPd⟩
          · refine hnext.requeued ⟨fun c hmem => ?_, hi.strm.unoInqueue, hi.strm.unoPd⟩
            obtain rfl | hmem := List.mem_cons.1 hmem
            · exact hc.readq
            · exact hrest c hmem
        · exact hi.requeued ⟨hq, hi.strm.unoInqueue, hi.strm.unoPd⟩

theorem deliverUnorderedFrom_intact {s t : StreamRx} {k : ℕ} (hi : s.Intact messages)
    (h : deliverUnorderedFrom cfg k s = .ok t) : t.Intact messages := by
  obtain ⟨r, hr, rfl⟩ := Attempt.map_ok h
  have hdrop : ∀ c ∈ s.strm.unoInqueue.drop k, c.Stays messages :=
    fun c hc => hi.strm.unoInqueue c (List.mem_of_mem_drop hc)
  obtain ⟨hmore, hleft⟩ := deliverUnordered_intact hi hdrop hr
  refine hmore.requeued ⟨hmore.strm.inqueue, fun c hmem => ?_, hmore.strm.unoPd⟩
  obtain hmem | hmem := List.mem_append.1 hmem
  · exact hi.strm.unoInqueue c (List.mem_of_mem_take hmem)
  · exact hleft c hmem

theorem deliverRest_intact {s : StreamRx} {lost : Bool} {k : ℕ} {r : StreamRx × ℕ} (hi : s.Intact messages)
    (h : (if lost = true then Except.error Fault.crash
      else if s.strm.pdApiStarted = true then .ok (s, 0)
      else (deliverUnorderedFrom cfg k s).map fun t => deliverMore cfg false t.strm.inqueue t) = .ok r) :
    r.1.Intact messages := by
  split at h
  · cases h
  · split at h
    · cases h
      exact hi
    · obtain ⟨t, ht, rfl⟩ := Attempt.map_ok h
      have hfrom := deliverUnorderedFrom_intact hi ht
      exact deliverMore_intact hfrom hfrom.strm.inqueue

theorem deliverReasmCheck_intact {s : StreamRx} {r : StreamRx × ℕ} (hi : s.Intact messages)
    (hk : s.Keyed names strmno) (hd : DistinctTsns messages) (hfit : PartsFit messages cfg)
    (h : deliverReasmCheck cfg s = .ok r) : r.1.Intact messages := by
  unfold deliverReasmCheck at h
  dsimp only at h
  cases hold : s.strm.unoInqueue.head?.filter (·.oldData) with
  | none =>
    rw [hold] at h
    exact deliverRest_intact hi h
  | some control =>
    rw [hold] at h
    obtain ⟨hhead, hflag⟩ := Option.mem_filter_iff.1 hold
    exact deliverRest_intact (handleOldData_intact hi hk hd hfit (List.mem_of_mem_head? hhead) hflag) h

def Control.Takes (messages : List Message) (c : Control) (chk : RecvChunk) : Prop :=
  (∃ m ∈ messages, (m.unordered = true → m.msgId.isSome = true) ∧ c.Waits m ∧ m.Split ∧
      ∃ i, chk.PartOf m i) ∨
    (c.Gathers messages ∧ chk.OldPart messages)

theorem Control.Takes.stays {c : Control} {chk : RecvChunk} (h : c.Takes messages chk) :
    c.Stays messages := by
  obtain ⟨m, hm, hnew, hwaits, -, -⟩ | ⟨hgathers, -⟩ := h
  · exact .inl ⟨m, hm, hnew, hwaits⟩
  · exact .inr hgathers

theorem queueFragment_waits (s : StreamRx) {c : Control} {m : Message} {chk : RecvChunk} {i : ℕ}
    (hwaits : c.Waits m) (hchk : chk.PartOf m i) : (queueFragment s c chk).2.1.Waits m := by
  unfold queueFragment
  split
  · rename_i q hq
    obtain ⟨k, hhas⟩ := hwaits.has
    refine hwaits.again rfl rfl (fun x hx => ?_) ⟨k, hhas.congr rfl rfl rfl rfl⟩
    obtain rfl | hx := mem_insertByFsn hq hx
    · exact ⟨i, hchk⟩
    · exact hwaits.reasm x hx
  · exact hwaits

theorem queueFragment_gathers (s : StreamRx) {c : Control} {chk : RecvChunk}
    (hgathers : c.Gathers messages) (hchk : chk.OldPart messages) :
    (queueFragment s c chk).2.1.Gathers messages := by
  unfold queueFragment
  split
  · rename_i q hq
    refine ⟨hgathers.oldData, hgathers.data, hgathers.ended, hgathers.notFrag, hgathers.unordered,
      hgathers.tsn, fun x hx => ?_⟩
    obtain rfl | hx := mem_insertByFsn hq hx
    · exact hchk
    · exact hgathers.reasm x hx
  · exact hgathers

theorem queueFragment_stays (s : StreamRx) {c : Control} {chk : RecvChunk} (h : c.Takes messages chk) :
    (queueFragment s c chk).2.1.Stays messages := by
  obtain ⟨m, hm, hnew, hwaits, -, i, hpart⟩ | ⟨hgathers, hchk⟩ := h
  · exact .inl ⟨m, hm, hnew, queueFragment_waits s hwaits hpart⟩
  · exact .inr (queueFragment_gathers s hgathers hchk)

theorem queueFragment_intact {s : StreamRx} (hi : s.Intact messages) (c : Control) (chk : RecvChunk) :
    (queueFragment s c chk).1.Intact messages := by
  unfold queueFragment
  split
  · exact ⟨hi.read, hi.strm⟩
  · exact hi

theorem suckUp_intact (cfg : RecvConfig) {q : List RecvChunk} {s : StreamRx} {control : Control} {m : Message}
    (hi : s.Intact messages) (hwaits : control.Waits m) (hsplit : m.Split)
    (hbegun : control.firstFragSeen = true) (hq : ∀ chk ∈ q, ∃ i, chk.PartOf m i) :
    (suckUp cfg q s control).1.Intact messages ∧ (suckUp cfg q s control).2.Waits m := by
  induction q generalizing s control with
  | nil =>
    refine ⟨hi, hwaits.again rfl rfl (fun chk hmem => absurd hmem List.not_mem_nil) ?_⟩
    obtain ⟨k, hhas⟩ := hwaits.has
    exact ⟨k, hhas.congr rfl rfl rfl rfl⟩
  | cons chk q ih =>
    obtain ⟨k, hhas⟩ := hwaits.has
    unfold suckUp
    split
    · rename_i hfsn
      obtain ⟨i, hpart⟩ := hq chk List.mem_cons_self
      obtain rfl := hhas.next hsplit ((hhas.seen hsplit).1 hbegun) hpart hfsn
      have hmerged := hhas.merge hsplit hpart
      refine ih (s := ⟨_, _⟩) ⟨hi.read, hi.strm.inqueue, hi.strm.unoInqueue, hi.strm.unoPd⟩ ?_ ?_ ?_
      · exact hwaits.again rfl rfl hwaits.reasm ⟨_, hmerged⟩
      · exact (hmerged.seen hsplit).2 (Nat.succ_pos i)
      · exact fun x hx => hq x (List.mem_cons_of_mem chk hx)
    · exact ⟨hi, hwaits.again rfl rfl hq ⟨k, hhas.congr rfl rfl rfl rfl⟩⟩

theorem noteLast_waits {control c : Control} {m : Message} {chk : RecvChunk} (hwaits : control.Waits m)
    (h : noteLast control chk = .ok c) : c.Waits m := by
  obtain ⟨k, hhas⟩ := hwaits.has
  unfold noteLast at h
  split at h
  · cases h
    exact hwaits.again rfl rfl hwaits.reasm ⟨k, hhas.congr rfl rfl rfl rfl⟩
  · split at h
    · cases h
    · split at h
      · cases h
      · cases h
        exact hwaits

/-- A fragment of a message with a control of its own. -/
theorem reassemble_intact {s t : StreamRx} {control : Control} {chk : RecvChunk} {m : Message} {i : ℕ}
    (hi : s.Intact messages) (hk : s.Keyed names strmno) (hd : DistinctTsns messages)
    (hp : control.Placed names s.nextId strmno u) (hm : m ∈ messages)
    (hnew : m.unordered = true → m.msgId.isSome = true) (hwaits : control.Waits m) (hsplit : m.Split)
    (hchk : chk.PartOf m i) (hfits : chk.Fits strmno u) (h : reassemble cfg s control chk = .ok t) :
    t.Intact messages := by
  unfold reassemble at h
  split at h
  · rename_i hfirst
    split at h
    · cases h
    · rename_i hbegun
      cases h
      obtain rfl : i = 0 := by simpa [hchk.first] using hfirst
      obtain ⟨k, hhas⟩ := hwaits.has
      obtain rfl : k = 0 := by
        have hseen := hhas.seen hsplit
        by_contra hk
        exact hbegun (hseen.2 (Nat.pos_of_ne_zero hk))
      have hstart : (firstFragment cfg s control chk).2.Waits m :=
        hwaits.again rfl rfl hwaits.reasm ⟨1, hhas.start hsplit hchk⟩
      have hfirst : StreamRx.Intact messages (firstFragment cfg s control chk).1 := ⟨hi.read, hi.strm⟩
      obtain ⟨hsuck, hstill⟩ := suckUp_intact cfg hfirst hstart hsplit rfl hwaits.reasm
      obtain ⟨hbegins, hstarted⟩ := firstFragment_advances cfg hk hp hfits
      obtain ⟨hadvances, hplaced⟩ := suckUp_advances cfg _ hbegins.keyed hstarted hp.reasm
      exact hsuck.put hadvances.keyed hd (.inl ⟨m, hm, hnew, hstill⟩) hplaced
  · obtain ⟨c, hnote, rfl⟩ := Attempt.map_ok h
    dsimp only
    have hc := noteLast_waits hwaits hnote
    have hqueued := queueFragment_intact hi c chk
    have hmore := queueFragment_waits s hc hchk
    obtain ⟨hadvances, hplaced⟩ := queueFragment_advances hk (noteLast_placed hp hnote) hfits
    split
    · rename_i hbegun
      rw [Bool.and_eq_true] at hbegun
      obtain ⟨hsuck, hstill⟩ :=
        suckUp_intact cfg hqueued hmore hsplit hbegun.2 hmore.reasm
      obtain ⟨hadvances', hplaced'⟩ := suckUp_advances cfg _ hadvances.keyed hplaced hplaced.reasm
      exact hsuck.put hadvances'.keyed hd (.inl ⟨m, hm, hnew, hstill⟩) hplaced'
    · exact hqueued.put hadvances.keyed hd (.inl ⟨m, hm, hnew, hmore⟩) hplaced

theorem queuePlaced_intact {t : StreamRx} {r : StreamRx × Bool} {control : Control} {chk : RecvChunk}
    {gap : Bool} {fault : AbortSpot → Fault} (hi : r.1.Intact messages) (hk : r.1.Keyed names strmno)
    (hd : DistinctTsns messages) (hp : control.Placed names r.1.nextId strmno u)
    (hc : control.Takes messages chk) (hfits : chk.Fits strmno u)
    (h : (if r.2 = true then Except.ok r.1
      else if gap = true then .error (fault .loc3)
      else if (control.oldData && control.sinfoFlags.unordered) = true then
        .ok ((queueFragment r.1 control chk).1.put (queueFragment r.1 control chk).2.1)
      else (reassemble cfg r.1 control chk).mapError fault) = .ok t) : t.Intact messages := by
  split at h
  · cases h
    exact hi
  · split at h
    · cases h
    · split at h
      · cases h
        obtain ⟨hadvances, hplaced⟩ := queueFragment_advances hk hp hfits
        exact (queueFragment_intact hi control chk).put hadvances.keyed hd
          (queueFragment_stays r.1 hc) hplaced
      · rename_i hnotOld
        obtain ⟨m, hm, hnew, hwaits, hsplit, i, hpart⟩ | ⟨hgathers, -⟩ := hc
        · exact reassemble_intact hi hk hd hp hm hnew hwaits hsplit hpart hfits (Attempt.mapError_ok h)
        · rw [hgathers.oldData, hgathers.unordered] at hnotOld
          exact absurd rfl hnotOld

theorem queueDataForReasm_intact {s t : StreamRx} {control : Control} {chk : RecvChunk} {created : Bool}
    (hi : s.Intact messages) (hk : s.Keyed names strmno) (hd : DistinctTsns messages)
    (hp : control.Placed names s.nextId strmno u) (hc : control.Takes messages chk)
    (hfits : chk.Fits strmno u) (h : queueDataForReasm cfg s control chk created = .ok t) :
    t.Intact messages := by
  unfold queueDataForReasm at h
  dsimp only at h
  split at h
  · obtain ⟨r, hr, h⟩ := Attempt.bind_ok h
    have hplace := placeControlInStream_advances hk hp hr
    exact queuePlaced_intact (placeControlInStream_intact hi hc.stays hr) hplace.keyed hd
      (hp.mono hplace.enters.nextId fun _ _ => rfl) hc hfits h
  · exact queuePlaced_intact (r := (s, false)) hi hk hd hp hc hfits h

end

end Sctp
