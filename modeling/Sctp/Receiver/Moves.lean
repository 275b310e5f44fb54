import Sctp.Receiver.Order

/-! Where the ordered messages of a stream are: they go from the queue of the stream to the read queue, and
one leaves the queue only when its number was delivered. -/
namespace Sctp

def StreamIn.waiting (strm : StreamIn) : List MsgKey := strm.inqueue.map Control.key

/-- An ordered message with the number is among the keys. -/
def Delivered (keys : List MsgKey) (ssn : Ssn) : Prop := ∃ k ∈ keys, k.unordered = false ∧ k.ssn = ssn

theorem Delivered.left {keys : List MsgKey} {ssn : Ssn} (h : Delivered keys ssn) (keys' : List MsgKey) :
    Delivered (keys ++ keys') ssn := by
  obtain ⟨k, hk, hssn⟩ := h
  exact ⟨k, List.mem_append_left keys' hk, hssn⟩

theorem Delivered.right {keys' : List MsgKey} {ssn : Ssn} (h : Delivered keys' ssn) (keys : List MsgKey) :
    Delivered (keys ++ keys') ssn := by
  obtain ⟨k, hk, hssn⟩ := h
  exact ⟨k, List.mem_append_right keys hk, hssn⟩

namespace StreamRx

/-- Ordered messages go from the stream to the read queue, which the messages of `keys` enter; those of
`extra` are new on the stream. -/
structure Moves (extra keys : List MsgKey) (s t : StreamRx) : Prop where
  read : t.readQueue.map Control.key = s.readQueue.map Control.key ++ keys
  source : ∀ k ∈ keys, k.unordered = false → k ∈ s.strm.waiting ++ extra
  waiting : ∀ k ∈ t.strm.waiting, k ∈ s.strm.waiting ++ extra
  kept : ∀ k ∈ s.strm.waiting ++ extra, k.ssn = s.strm.lastSequenceDelivered ∨
    (∃ k' ∈ t.strm.waiting, k'.ssn = k.ssn) ∨ Delivered keys k.ssn
  last : t.strm.lastSequenceDelivered = s.strm.lastSequenceDelivered ∨
    Delivered keys t.strm.lastSequenceDelivered

/-- Only unordered messages enter the read queue, and nothing happens to the ordered ones. -/
structure Aside (s t : StreamRx) : Prop where
  read : ∃ keys, t.readQueue.map Control.key = s.readQueue.map Control.key ++ keys ∧
    ∀ k ∈ keys, k.unordered = true
  waiting : t.strm.waiting = s.strm.waiting
  last : t.strm.lastSequenceDelivered = s.strm.lastSequenceDelivered

variable {extra extra' keys keys' : List MsgKey} {s t u : StreamRx}

theorem Moves.trans (h : Moves extra keys s t) (h' : Moves extra' keys' t u) :
    Moves (extra ++ extra') (keys ++ keys') s u := by
  have hback : ∀ k ∈ t.strm.waiting ++ extra', k ∈ s.strm.waiting ++ (extra ++ extra') := by
    intro k hk
    rw [← List.append_assoc]
    obtain hk | hk := List.mem_append.1 hk
    · exact List.mem_append_left extra' (h.waiting k hk)
    · exact List.mem_append_right _ hk
  have hon : ∀ k ∈ t.strm.waiting ++ extra', k.ssn = s.strm.lastSequenceDelivered ∨
      (∃ k' ∈ u.strm.waiting, k'.ssn = k.ssn) ∨ Delivered (keys ++ keys') k.ssn := by
    intro k hk
    obtain hlast | hstay | hgone := h'.kept k hk
    · obtain hsame | hout := h.last
      · exact .inl (hlast.trans hsame)
      · rw [hlast]
        exact .inr (.inr (hout.left keys'))
    · exact .inr (.inl hstay)
    · exact .inr (.inr (hgone.right keys))
  constructor
  · rw [h'.read, h.read, List.append_assoc]
  · intro k hk hordered
    obtain hk | hk := List.mem_append.1 hk
    · rw [← List.append_assoc]
      exact List.mem_append_left extra' (h.source k hk hordered)
    · exact hback k (h'.source k hk hordered)
  · exact fun k hk => hback k (h'.waiting k hk)
  · intro k hk
    rw [← List.append_assoc] at hk
    obtain hk | hk := List.mem_append.1 hk
    · obtain hlast | ⟨k', hk', hssn⟩ | hgone := h.kept k hk
      · exact .inl hlast
      · rw [← hssn]
        exact hon k' (List.mem_append_left extra' hk')
      · exact .inr (.inr (hgone.left keys'))
    · exact hon k (List.mem_append_right _ hk)
  · obtain hlast | hout := h'.last
    · rw [hlast]
      obtain hlast | hout := h.last
      · exact .inl hlast
      · exact .inr (hout.left keys')
    · exact .inr (hout.right keys)

theorem Aside.refl (s : StreamRx) : Aside s s :=
  ⟨⟨[], (List.append_nil _).symm, fun _ hk => absurd hk List.not_mem_nil⟩, rfl, rfl⟩

theorem Aside.trans (h : Aside s t) (h' : Aside t u) : Aside s u := by
  obtain ⟨⟨keys, hread, hkeys⟩, hwaiting, hlast⟩ := h
  obtain ⟨⟨keys', hread', hkeys'⟩, hwaiting', hlast'⟩ := h'
  refine ⟨⟨keys ++ keys', ?_, fun k hk => ?_⟩, hwaiting'.trans hwaiting, hlast'.trans hlast⟩
  · rw [hread', hread, List.append_assoc]
  · obtain hk | hk := List.mem_append.1 hk
    · exact hkeys k hk
    · exact hkeys' k hk

/-- The read queue and the ordered messages stay as they are. -/
theorem Aside.of_same (hread : t.readQueue.map Control.key = s.readQueue.map Control.key)
    (hwaiting : t.strm.waiting = s.strm.waiting)
    (hlast : t.strm.lastSequenceDelivered = s.strm.lastSequenceDelivered) : Aside s t := by
  refine ⟨⟨[], ?_, fun _ hk => absurd hk List.not_mem_nil⟩, hwaiting, hlast⟩
  rw [hread, List.append_nil]

/-- An unordered control goes to the read queue. -/
theorem Aside.readUnordered {c : Control} (hunordered : c.sinfoFlags.unordered = true) (last : Bool)
    {asoc : RecvAsoc} (hasoc : asoc.readQueue = s.readQueue) {strm : StreamIn}
    (hwaiting : strm.waiting = s.strm.waiting)
    (hlast : strm.lastSequenceDelivered = s.strm.lastSequenceDelivered) :
    Aside s { toRecvAsoc := asoc.addToReadq c last, strm := strm } := by
  obtain hread | hread := RecvAsoc.map_addToReadq asoc c last
  · rw [hasoc] at hread
    exact .of_same hread hwaiting hlast
  · rw [hasoc] at hread
    refine ⟨⟨[c.key], hread, fun k hk => ?_⟩, hwaiting, hlast⟩
    rw [List.mem_singleton.1 hk]
    exact hunordered

theorem Aside.moves (h : Aside s t) : ∃ keys, Moves [] keys s t := by
  obtain ⟨⟨keys, hread, hkeys⟩, hwaiting, hlast⟩ := h
  refine ⟨keys, hread, fun k hk hordered => ?_, fun k hk => ?_, fun k hk => ?_, .inl hlast⟩
  · rw [hkeys k hk] at hordered
    cases hordered
  · rw [List.append_nil, ← hwaiting]
    exact hk
  · rw [List.append_nil, ← hwaiting] at hk
    exact .inr (.inl ⟨k, hk, rfl⟩)

theorem Moves.aside (h : Moves extra keys s t) (h' : Aside t u) : ∃ keys, Moves extra keys s u := by
  obtain ⟨keys', hmoves⟩ := h'.moves
  have hboth := h.trans hmoves
  rw [List.append_nil] at hboth
  exact ⟨_, hboth⟩

theorem Aside.andMoves (h : Aside s t) (h' : Moves extra keys t u) : ∃ keys, Moves extra keys s u := by
  obtain ⟨keys', hmoves⟩ := h.moves
  exact ⟨_, hmoves.trans h'⟩

/-- The next message goes to the read queue. -/
theorem Moves.of_next {c : Control}
    (hread : t.readQueue.map Control.key = s.readQueue.map Control.key ++ [c.key])
    (hordered : c.sinfoFlags.unordered = false) (hlast : t.strm.lastSequenceDelivered = c.sinfoSsn)
    (hc : c.key ∈ s.strm.waiting ++ extra)
    (hwaiting : ∀ k ∈ t.strm.waiting, k ∈ s.strm.waiting ++ extra)
    (hkept : ∀ k ∈ s.strm.waiting ++ extra, k = c.key ∨ k ∈ t.strm.waiting) :
    Moves extra [c.key] s t := by
  have hout : Delivered [c.key] c.sinfoSsn := ⟨c.key, List.mem_cons_self, hordered, rfl⟩
  refine ⟨hread, fun k hk _ => ?_, hwaiting, fun k hk => ?_, .inr (hlast ▸ hout)⟩
  · rw [List.mem_singleton.1 hk]
    exact hc
  · obtain rfl | hk := hkept k hk
    · exact .inr (.inr hout)
    · exact .inr (.inl ⟨k, hk, rfl⟩)

/-- A message that was delivered leaves the stream. -/
theorem Moves.of_done {c : Control} {q : List Control} (hq : s.strm.inqueue = c :: q)
    (hssn : c.sinfoSsn = s.strm.lastSequenceDelivered) :
    Moves [] [] s { s with strm := { s.strm with inqueue := q } } := by
  have hwaiting : s.strm.waiting = c.key :: q.map Control.key := by
    rw [StreamIn.waiting, hq, List.map_cons]
  refine ⟨(List.append_nil _).symm, fun k hk => absurd hk List.not_mem_nil, fun k hk => ?_, fun k hk => ?_,
    .inl rfl⟩
  · rw [hwaiting, List.append_nil]
    exact List.mem_cons_of_mem _ hk
  · rw [hwaiting, List.append_nil] at hk
    obtain rfl | hk := List.mem_cons.1 hk
    · exact .inl hssn
    · exact .inr (.inl ⟨k, hk, rfl⟩)

variable {names : ℕ → MsgKey} {strmno : StreamNo} {u : Bool} {c : Control}

theorem Keyed.put_aside (hs : s.Keyed names strmno) (hc : c.Placed names s.nextId strmno u) :
    Aside s (s.put c) := by
  refine .of_same ?_ ?_ rfl
  · change (s.readQueue.map c.put).map Control.key = _
    rw [List.map_map]
    exact List.map_congr_left fun x hx => (hc.named.put (hs.read x hx)).2
  · change (s.strm.inqueue.map c.put).map Control.key = _
    rw [List.map_map]
    exact List.map_congr_left fun x hx => (hc.named.put (hs.strm.inqueue x hx).named).2

end StreamRx

open StreamRx

section

variable {cfg : RecvConfig} {names : ℕ → MsgKey} {strmno : StreamNo} {u : Bool}

theorem mergeNew_aside (cfg : RecvConfig) (s : StreamRx) (chks : List RecvChunk) (fchk : RecvChunk) :
    Aside s (mergeNew cfg s chks fchk).1 := by
  obtain ⟨hread, -⟩ := foldl_merged_same cfg.doDrain chks s.toRecvAsoc
  exact .of_same (congrArg (List.map Control.key) hread) rfl rfl

theorem buildOneUpTo_aside (cfg : RecvConfig) {s : StreamRx} {chks : List RecvChunk} {fchk : RecvChunk}
    (hs : s.Keyed names strmno) (hchks : ∀ chk ∈ chks, chk.Fits strmno true)
    (hfchk : fchk.Fits strmno true) : Aside s (buildOneUpTo cfg s chks fchk) := by
  obtain ⟨names', -, hc⟩ := mergeNew_advances cfg hs hchks hfchk
  apply (mergeNew_aside cfg s chks fchk).trans
  apply Aside.readUnordered
  · exact hc.flag
  · rfl
  · rfl
  · rfl

theorem buildPdUnordered_aside (cfg : RecvConfig) {s : StreamRx} {chks : List RecvChunk} {fchk : RecvChunk}
    (hs : s.Keyed names strmno) (hchks : ∀ chk ∈ chks, chk.Fits strmno true)
    (hfchk : fchk.Fits strmno true) : Aside s (buildPdUnordered cfg s chks fchk) := by
  obtain ⟨names', -, hc⟩ := mergeNew_advances cfg hs hchks hfchk
  apply (mergeNew_aside cfg s chks fchk).trans
  exact .readUnordered hc.flag _ rfl rfl rfl

theorem appendPd_aside (cfg : RecvConfig) {s : StreamRx} {pd : Control} {reasm : List RecvChunk}
    (hs : s.Keyed names strmno) (hpd : pd.Placed names s.nextId strmno true)
    (hreasm : ∀ chk ∈ reasm, chk.Fits strmno true) : Aside s (appendPd cfg s pd reasm).2 := by
  obtain ⟨hplaced, -, hread, -⟩ := appendRun_placed cfg s.toRecvAsoc hpd hreasm
  refine .of_same ?_ rfl rfl
  change List.map Control.key (List.map _ (appendRun cfg reasm s.toRecvAsoc pd).2.1.readQueue) = _
  rw [hread, List.map_map]
  exact List.map_congr_left fun x hx => (hplaced.named.put (hs.read x hx)).2

theorem handleOldDataLoop_aside (cfg : RecvConfig) (fuel : ℕ) {reasm : List RecvChunk} {s : StreamRx}
    (hs : s.Keyed names strmno) (hreasm : ∀ chk ∈ reasm, chk.Fits strmno true) :
    Aside s (handleOldDataLoop cfg fuel reasm s).2 := by
  induction fuel generalizing reasm s names with
  | zero => exact .refl s
  | succ fuel ih =>
    cases reasm with
    | nil => exact .refl s
    | cons fchk rest =>
      have hfchk := hreasm fchk List.mem_cons_self
      have htake : ∀ k, ∀ chk ∈ (fchk :: rest).take k, chk.Fits strmno true :=
        fun k chk hc => hreasm chk (List.mem_of_mem_take hc)
      have hdrop : ∀ k, ∀ chk ∈ (fchk :: rest).drop k, chk.Fits strmno true :=
        fun k chk hc => hreasm chk (List.mem_of_mem_drop hc)
      unfold handleOldDataLoop
      split
      · split
        · exact .refl s
        · dsimp only
          split
          · obtain ⟨names', hbuilt⟩ := buildOneUpTo_advances cfg hs (htake _) hfchk
            exact (buildOneUpTo_aside cfg hs (htake _) hfchk).trans (ih hbuilt.keyed (hdrop _))
          · split
            · exact buildPdUnordered_aside cfg hs (htake _) hfchk
            · exact .refl s
      · rename_i pd hpd
        have hplaced := hs.strm.unoPd pd hpd
        obtain ⟨hmore, hfits⟩ := appendPd_advances cfg hs hplaced hreasm
        have haside := appendPd_aside cfg hs hplaced hreasm
        dsimp only
        split
        · exact haside.trans (ih hmore.keyed hfits)
        · exact haside

theorem handleOldData_aside (cfg : RecvConfig) {s : StreamRx} {control : Control} (hs : s.Keyed names strmno)
    (hc : control ∈ s.strm.unoInqueue) : Aside s (handleOldData cfg s control) := by
  have hplaced := hs.strm.unoInqueue control hc
  obtain ⟨⟨names', hloop⟩, hfits⟩ := handleOldDataLoop_advances cfg (control.reasm.length + 1) hs
    hplaced.reasm
  have hafter := hplaced.mono hloop.enters.nextId hloop.agrees
  apply (handleOldDataLoop_aside cfg (control.reasm.length + 1) hs hplaced.reasm).trans
  apply hloop.keyed.put_aside (u := true)
  exact ⟨hafter.named, hafter.stream, hafter.flag, hafter.data, hfits⟩

theorem deliverUnordered_aside {q : List Control} {s : StreamRx} {r : List Control × StreamRx}
    (hq : ∀ c ∈ q, c.sinfoFlags.unordered = true) (h : deliverUnordered cfg q s = .ok r) : Aside s r.2 := by
  induction q generalizing s r with
  | nil =>
    cases h
    exact .refl s
  | cons control q ih =>
    have hc := hq control List.mem_cons_self
    have hrest : ∀ c ∈ q, c.sinfoFlags.unordered = true := fun c hmem => hq c (List.mem_cons_of_mem control hmem)
    unfold deliverUnordered at h
    split at h
    · split at h
      · exact ih hrest h
      · have hread : Aside s { s with toRecvAsoc := s.toRecvAsoc.addToReadq control control.endAdded } :=
          .readUnordered hc control.endAdded rfl rfl rfl
        exact hread.trans (ih hrest h)
    · split at h
      · split at h
        · cases h
        · cases h
          exact .readUnordered hc control.endAdded rfl rfl rfl
      · obtain ⟨r', hr', rfl⟩ := Attempt.map_ok h
        have hmore := ih hrest hr'
        exact hmore

theorem deliverUnorderedFrom_aside {s t : StreamRx} {k : ℕ} (hs : s.Keyed names strmno)
    (h : deliverUnorderedFrom cfg k s = .ok t) : Aside s t := by
  obtain ⟨r, hr, rfl⟩ := Attempt.map_ok h
  have hdrop : ∀ c ∈ s.strm.unoInqueue.drop k, c.sinfoFlags.unordered = true :=
    fun c hc => (hs.strm.unoInqueue c (List.mem_of_mem_drop hc)).flag
  exact (deliverUnordered_aside hdrop hr).trans (.of_same rfl rfl rfl)

theorem mem_of_insertByMsgId {control : Control} {q q' : List Control}
    (h : insertByMsgId control q = some q') : ∀ c, c = control ∨ c ∈ q → c ∈ q' := by
  induction q generalizing q' with
  | nil =>
    obtain rfl := Option.some.inj h
    intro c hc
    obtain rfl | hc := hc
    · exact List.mem_cons_self
    · exact absurd hc List.not_mem_nil
  | cons x q ih =>
    unfold insertByMsgId at h
    split at h
    · obtain rfl := Option.some.inj h
      intro c hc
      exact List.mem_cons.2 hc
    · split at h
      · cases h
      · obtain ⟨r, hr, rfl⟩ := Option.map_eq_some_iff.1 h
        intro c hc
        obtain rfl | hc := hc
        · exact List.mem_cons_of_mem x (ih hr c (.inl rfl))
        · obtain rfl | hc := List.mem_cons.1 hc
          · exact List.mem_cons_self
          · exact List.mem_cons_of_mem x (ih hr c (.inr hc))

theorem msgId_of_insertByMsgId {control : Control} {q : List Control}
    (h : insertByMsgId control q = none) : ∃ c ∈ q, c.msgId = control.msgId := by
  induction q with
  | nil => cases h
  | cons x q ih =>
    unfold insertByMsgId at h
    split at h
    · cases h
    · split at h
      · rename_i hsame
        exact ⟨x, List.mem_cons_self, hsame⟩
      · obtain ⟨c, hc, hsame⟩ := ih (Option.map_eq_none_iff.1 h)
        exact ⟨c, List.mem_cons_of_mem x hc, hsame⟩

theorem wholeControl_key (control : Control) : (wholeControl control).key = control.key := by
  unfold wholeControl
  split <;> rfl

/-- A new unordered control. -/
theorem placeControlInStream_aside {s : StreamRx} {control : Control} {r : StreamRx × Bool}
    (hunordered : control.sinfoFlags.unordered = true) (h : placeControlInStream s control = .ok r) :
    Aside s r.1 := by
  unfold placeControlInStream at h
  rw [if_pos hunordered] at h
  obtain ⟨t, ht, rfl⟩ := Attempt.map_ok h
  unfold placeUnordered at ht
  split_ifs at ht
  · cases ht
    exact .of_same rfl rfl rfl
  · cases ht
    exact .of_same rfl rfl rfl

/-- A new ordered control. -/
theorem placeControlInStream_moves {s : StreamRx} {control : Control} {r : StreamRx × Bool}
    (hordered : control.sinfoFlags.unordered = false)
    (hnumber : ∀ c ∈ s.strm.inqueue, c.msgId = control.msgId → c.sinfoSsn = control.sinfoSsn)
    (h : placeControlInStream s control = .ok r) : Moves [control.key] [] s r.1 := by
  have hkey := wholeControl_key control
  unfold placeControlInStream at h
  rw [hordered, if_neg Bool.false_ne_true] at h
  split at h
  · rename_i q hq
    cases h
    refine ⟨(List.append_nil _).symm, fun k hk => absurd hk List.not_mem_nil, fun k hk => ?_, fun k hk => ?_,
      .inl rfl⟩
    · obtain ⟨c, hc, rfl⟩ := List.mem_map.1 hk
      obtain rfl | hc := mem_insertByMsgId hq hc
      · rw [hkey]
        exact List.mem_append_right _ List.mem_cons_self
      · exact List.mem_append_left _ (List.mem_map_of_mem hc)
    · refine .inr (.inl ⟨k, ?_, rfl⟩)
      obtain hk | hk := List.mem_append.1 hk
      · obtain ⟨c, hc, rfl⟩ := List.mem_map.1 hk
        exact List.mem_map_of_mem (mem_of_insertByMsgId hq c (.inr hc))
      · rw [List.mem_singleton.1 hk, ← hkey]
        exact List.mem_map_of_mem (mem_of_insertByMsgId hq _ (.inl rfl))
  · rename_i hdup
    cases h
    refine ⟨(List.append_nil _).symm, fun k hk => absurd hk List.not_mem_nil,
      fun k hk => List.mem_append_left _ hk, fun k hk => .inr (.inl ?_), .inl rfl⟩
    obtain hk | hk := List.mem_append.1 hk
    · exact ⟨k, hk, rfl⟩
    · obtain ⟨c, hc, hmsgId⟩ := msgId_of_insertByMsgId hdup
      have hwhole : (wholeControl control).msgId = control.msgId := congrArg MsgKey.msgId hkey
      rw [List.mem_singleton.1 hk]
      exact ⟨c.key, List.mem_map_of_mem hc, hnumber c hc (hmsgId.trans hwhole)⟩

/-- A message leaves the stream as the next one. -/
theorem deliverSingle_moves (cfg : RecvConfig) (asoc : RecvAsoc) {s : StreamRx} {control : Control}
    {q : List Control} (hordered : control.sinfoFlags.unordered = false) (hdata : control.data ≠ [])
    (hssn : s.strm.lastSequenceDelivered + 1 = control.sinfoSsn) (hasoc : asoc.readQueue = s.readQueue)
    {x : StreamRx} (hx : x = deliverSingle cfg { s with toRecvAsoc := asoc } control) :
    Moves [] [control.key] { s with strm := { s.strm with inqueue := control :: q } }
      { x with strm := { x.strm with inqueue := q } } := by
  subst hx
  apply Moves.of_next
  · change List.map Control.key (RecvAsoc.addToReadq _ control true).readQueue = _
    rw [RecvAsoc.map_addToReadq_of_data _ control true hdata]
    exact congrArg (fun read => List.map Control.key read ++ [control.key]) hasoc
  · exact hordered
  · exact hssn
  · rw [List.append_nil]
    exact List.mem_cons_self
  · intro k hk
    rw [List.append_nil]
    exact List.mem_cons_of_mem _ hk
  · intro k hk
    rw [List.append_nil] at hk
    exact List.mem_cons.1 hk

theorem drainInqueue_moves (cfg : RecvConfig) {q : List Control} {s : StreamRx}
    (hq : ∀ c ∈ q, c.sinfoFlags.unordered = false ∧ (c.sinfoFlags.notFrag = true → c.data ≠ [])) :
    ∃ keys, Moves [] keys { s with strm := { s.strm with inqueue := q } } (drainInqueue cfg q s).1 := by
  induction q generalizing s with
  | nil => exact (Aside.refl _).moves
  | cons control q ih =>
    obtain ⟨hordered, hdata⟩ := hq control List.mem_cons_self
    unfold drainInqueue
    split
    · rename_i hssn
      split
      · rename_i hwhole
        have hout := deliverSingle_moves cfg (s.toRecvAsoc.countOut control) (q := q) hordered (hdata hwhole)
          hssn rfl rfl
        obtain ⟨keys, hmore⟩ := ih (s := deliverSingle cfg
          { s with toRecvAsoc := s.toRecvAsoc.countOut control } control)
          fun c hc => hq c (List.mem_cons_of_mem control hc)
        exact ⟨_, hout.trans hmore⟩
      · exact (Aside.refl _).moves
    · exact (Aside.refl _).moves

theorem StreamIn.Keyed.whole {top : ℕ} {strm : StreamIn} (h : strm.Keyed names top strmno) :
    ∀ c ∈ strm.inqueue, c.sinfoFlags.unordered = false ∧ (c.sinfoFlags.notFrag = true → c.data ≠ []) :=
  fun c hc => ⟨(h.inqueue c hc).flag, fun hwhole => (h.inqueue c hc).data rfl (.inl hwhole)⟩

theorem queueDataToStream_moves {s : StreamRx} {control : Control} {r : StreamRx × Bool}
    (hs : s.Keyed names strmno) (hordered : control.sinfoFlags.unordered = false)
    (hdata : control.data ≠ [])
    (hnumber : ∀ c ∈ s.strm.inqueue, c.msgId = control.msgId → c.sinfoSsn = control.sinfoSsn)
    (h : queueDataToStream cfg s control = .ok r) : ∃ keys, Moves [control.key] keys s r.1 := by
  unfold queueDataToStream at h
  dsimp only at h
  split at h
  · cases h
  · split at h
    · rename_i hssn
      cases h
      have hout : Moves [control.key] [control.key] s (deliverSingle cfg
          { s with toRecvAsoc := (s.toRecvAsoc.countIn control).countOut control } control) := by
        apply Moves.of_next
        · exact RecvAsoc.map_addToReadq_of_data _ control true hdata
        · exact hordered
        · exact hssn
        · exact List.mem_append_right _ List.mem_cons_self
        · exact fun k hk => List.mem_append_left _ hk
        · intro k hk
          obtain hk | hk := List.mem_append.1 hk
          · exact .inr hk
          · exact .inl (List.mem_singleton.1 hk)
      obtain ⟨keys, hmore⟩ := drainInqueue_moves cfg (s := deliverSingle cfg
        { s with toRecvAsoc := (s.toRecvAsoc.countIn control).countOut control } control) hs.strm.whole
      exact ⟨_, hout.trans hmore⟩
    · obtain ⟨x, hx, rfl⟩ := Attempt.map_ok h
      have hplaced := placeControlInStream_moves (s := { s with toRecvAsoc := s.toRecvAsoc.countIn control })
        hordered hnumber hx
      exact ⟨[], hplaced.read, hplaced.source, hplaced.waiting, hplaced.kept, hplaced.last⟩

/-- A control that is delivered now is the next one of the stream; more of it may come. -/
theorem deliverNext_moves (cfg : RecvConfig) (q' : List Control) {s x : StreamRx} {control : Control}
    {q : List Control} {top : ℕ} (hc : control.Placed names top strmno false) (h : deliverable cfg s control = true)
    (hread : x.readQueue = (deliverNext cfg s control).readQueue) (hq : x.strm.waiting = q'.map Control.key)
    (hlast : x.strm.lastSequenceDelivered = s.strm.lastSequenceDelivered + 1)
    (hleft : ∀ k ∈ q'.map Control.key, k = control.key ∨ k ∈ q.map Control.key)
    (hkept : ∀ k ∈ q.map Control.key, k ∈ q'.map Control.key) :
    Moves [] [control.key] { s with strm := { s.strm with inqueue := control :: q } } x := by
  unfold deliverable at h
  simp only [Bool.and_eq_true, decide_eq_true_iff] at h
  obtain ⟨⟨hssn, hfirst⟩, -⟩ := h
  apply Moves.of_next
  · rw [hread]
    exact RecvAsoc.map_addToReadq_of_data _ control control.endAdded (hc.data rfl (.inr hfirst))
  · exact hc.flag
  · exact hlast.trans hssn.symm
  · rw [List.append_nil]
    exact List.mem_cons_self
  · intro k hk
    rw [hq] at hk
    rw [List.append_nil]
    exact List.mem_cons.2 (hleft k hk)
  · intro k hk
    rw [List.append_nil] at hk
    rw [hq]
    obtain hk | hk := List.mem_cons.1 hk
    · exact .inl hk
    · exact .inr (hkept k hk)

theorem deliverMore_moves (cfg : RecvConfig) (lag : Bool) {q : List Control} {s : StreamRx}
    (hs : s.Keyed names strmno) (hq : ∀ c ∈ q, c.Placed names s.nextId strmno false) :
    ∃ keys, Moves [] keys { s with strm := { s.strm with inqueue := q } } (deliverMore cfg lag q s).1 := by
  induction q generalizing lag s with
  | nil => exact (Aside.refl _).moves
  | cons control q ih =>
    have hc := hq control List.mem_cons_self
    have hrest : ∀ c ∈ q, c.Placed names s.nextId strmno false :=
      fun c hc => hq c (List.mem_cons_of_mem control hc)
    have hdrop : s.strm.lastSequenceDelivered = control.sinfoSsn →
        Moves [] [] { s with strm := { s.strm with inqueue := control :: q } }
          { s with strm := { s.strm with inqueue := q } } := fun hssn => .of_done rfl hssn.symm
    unfold deliverMore
    dsimp only
    split
    · split
      · rename_i hdone
        simp only [Bool.and_eq_true, beq_iff_eq] at hdone
        exact ⟨[], hdrop hdone.1.2⟩
      · exact (Aside.refl _).moves
    · split
      · rename_i hdone
        simp only [Bool.and_eq_true, beq_iff_eq] at hdone
        obtain ⟨keys, hmore⟩ := ih true hs hrest
        exact ⟨_, (hdrop hdone.1.2).trans hmore⟩
      · split
        · rename_i hnow
          have hnext := deliverNext_advances hs hc hnow
          have hall : ∀ k ∈ q.map Control.key, k = control.key ∨ k ∈ q.map Control.key := fun k hk => .inr hk
          split
          · split
            · obtain ⟨keys, hmore⟩ := ih lag hnext.keyed fun c hmem =>
                (hrest c hmem).mono hnext.enters.nextId fun _ _ => rfl
              have hout : Moves [] [control.key] { s with strm := { s.strm with inqueue := control :: q } }
                  { deliverNext cfg s control with
                    strm := { (deliverNext cfg s control).strm with inqueue := q } } :=
                deliverNext_moves cfg q hc hnow rfl rfl rfl hall fun k hk => hk
              exact ⟨_, hout.trans hmore⟩
            · exact ⟨_, deliverNext_moves cfg q hc hnow rfl rfl rfl hall fun k hk => hk⟩
          · refine ⟨_, deliverNext_moves cfg (control :: q) hc hnow rfl rfl rfl (fun k hk => ?_)
              fun k hk => ?_⟩
            · exact List.mem_cons.1 hk
            · exact List.mem_cons_of_mem _ hk
        · exact (Aside.refl _).moves

theorem deliverRest_moves {s : StreamRx} {lost : Bool} {k : ℕ} {r : StreamRx × ℕ}
    (hs : s.Keyed names strmno)
    (h : (if lost = true then Except.error Fault.crash
      else if s.strm.pdApiStarted = true then .ok (s, 0)
      else (deliverUnorderedFrom cfg k s).map fun t => deliverMore cfg false t.strm.inqueue t) = .ok r) :
    ∃ keys, Moves [] keys s r.1 := by
  split at h
  · cases h
  · split at h
    · cases h
      exact (Aside.refl s).moves
    · obtain ⟨t, ht, rfl⟩ := Attempt.map_ok h
      have hfrom := deliverUnorderedFrom_advances hs ht
      obtain ⟨keys, hmore⟩ := deliverMore_moves cfg false hfrom.keyed
        hfrom.keyed.strm.inqueue
      exact (deliverUnorderedFrom_aside hs ht).andMoves hmore

theorem deliverReasmCheck_moves {s : StreamRx} {r : StreamRx × ℕ} (hs : s.Keyed names strmno)
    (h : deliverReasmCheck cfg s = .ok r) : ∃ keys, Moves [] keys s r.1 := by
  unfold deliverReasmCheck at h
  dsimp only at h
  cases hold : s.strm.unoInqueue.head?.filter (·.oldData) with
  | none =>
    rw [hold] at h
    exact deliverRest_moves hs h
  | some control =>
    rw [hold] at h
    have hmem : control ∈ s.strm.unoInqueue :=
      List.mem_of_mem_head? (Option.mem_filter_iff.1 hold).1
    obtain ⟨names', hhandled⟩ := handleOldData_advances cfg hs hmem
    obtain ⟨keys, hmore⟩ := deliverRest_moves hhandled.keyed h
    exact (handleOldData_aside cfg hs hmem).andMoves hmore

theorem queueFragment_aside (s : StreamRx) (control : Control) (chk : RecvChunk) :
    Aside s (queueFragment s control chk).1 := by
  unfold queueFragment
  split
  · exact .of_same rfl rfl rfl
  · exact .refl s

theorem suckUp_aside (cfg : RecvConfig) {q : List RecvChunk} (s : StreamRx) (control : Control) :
    Aside s (suckUp cfg q s control).1 := by
  induction q generalizing s control with
  | nil => exact .refl s
  | cons chk q ih =>
    unfold suckUp
    split
    · apply Aside.trans _ (ih _ _)
      exact .of_same rfl rfl rfl
    · exact .refl s

theorem reassemble_aside {s t : StreamRx} {control : Control} {chk : RecvChunk}
    (hs : s.Keyed names strmno) (hc : control.Placed names s.nextId strmno u) (hchk : chk.Fits strmno u)
    (h : reassemble cfg s control chk = .ok t) : Aside s t := by
  unfold reassemble at h
  split at h
  · split at h
    · cases h
    · cases h
      obtain ⟨hfirst, hstarted⟩ := firstFragment_advances cfg hs hc hchk
      obtain ⟨hsuck, hplaced⟩ := suckUp_advances cfg _ hfirst.keyed hstarted hc.reasm
      have haside : Aside s (firstFragment cfg s control chk).1 := .of_same rfl rfl rfl
      exact (haside.trans (suckUp_aside cfg _ _)).trans (hsuck.keyed.put_aside hplaced)
  · obtain ⟨c, hnote, rfl⟩ := Attempt.map_ok h
    dsimp only
    obtain ⟨hqueued, hplaced⟩ := queueFragment_advances hs (noteLast_placed hc hnote) hchk
    have haside := queueFragment_aside s c chk
    split
    · obtain ⟨hsuck, hleft⟩ := suckUp_advances cfg _ hqueued.keyed hplaced hplaced.reasm
      exact (haside.trans (suckUp_aside cfg _ _)).trans (hsuck.keyed.put_aside hleft)
    · exact haside.trans (hqueued.keyed.put_aside hplaced)

theorem queuePlaced_aside {t : StreamRx} {r : StreamRx × Bool} {control : Control} {chk : RecvChunk}
    {gap : Bool} {fault : AbortSpot → Fault} (hr : r.1.Keyed names strmno)
    (hc : control.Placed names r.1.nextId strmno u) (hchk : chk.Fits strmno u)
    (h : (if r.2 = true then Except.ok r.1
      else if gap = true then .error (fault .loc3)
      else if (control.oldData && control.sinfoFlags.unordered) = true then
        .ok ((queueFragment r.1 control chk).1.put (queueFragment r.1 control chk).2.1)
      else (reassemble cfg r.1 control chk).mapError fault) = .ok t) : Aside r.1 t := by
  split at h
  · cases h
    exact .refl _
  · split at h
    · cases h
    · split at h
      · cases h
        obtain ⟨hqueued, hplaced⟩ := queueFragment_advances hr hc hchk
        exact (queueFragment_aside r.1 control chk).trans (hqueued.keyed.put_aside hplaced)
      · exact reassemble_aside hr hc hchk (Attempt.mapError_ok h)

/-- The keys of the ordered messages that a control brings to its stream. -/
def Control.brings (c : Control) : List MsgKey := if c.sinfoFlags.unordered then [] else [c.key]

theorem queueDataForReasm_moves {s t : StreamRx} {control : Control} {chk : RecvChunk} {created : Bool}
    (hs : s.Keyed names strmno) (hc : control.Placed names s.nextId strmno u) (hchk : chk.Fits strmno u)
    (hnumber : created = true → ∀ c ∈ s.strm.inqueue, c.msgId = control.msgId →
      c.sinfoSsn = control.sinfoSsn)
    (h : queueDataForReasm cfg s control chk created = .ok t) :
    ∃ keys, Moves (if created then control.brings else []) keys s t := by
  unfold queueDataForReasm at h
  dsimp only at h
  split at h
  · rename_i hcreated
    obtain ⟨r, hr, h⟩ := Attempt.bind_ok h
    have hplace := placeControlInStream_advances hs hc hr
    have haside := queuePlaced_aside hplace.keyed (hc.mono hplace.enters.nextId fun _ _ => rfl) hchk h
    rw [if_pos hcreated, Control.brings]
    split
    · rename_i hunordered
      exact ((placeControlInStream_aside hunordered hr).trans haside).moves
    · rename_i hordered
      exact (placeControlInStream_moves (Bool.eq_false_iff.2 hordered) (hnumber hcreated) hr).aside haside
  · rename_i hfound
    rw [if_neg hfound]
    exact (queuePlaced_aside (r := (s, false)) hs hc hchk h).moves

end

namespace DataChunk

def key (ch : DataChunk) : MsgKey :=
  ⟨ch.streamId, ch.streamSequence, ch.chunkFlags.unordered, ch.tsn, ch.msgId, ch.oldData⟩

/-- The key of the ordered message that begins to wait with the chunk. -/
def brings (ch : DataChunk) : List MsgKey := if ch.chunkFlags.unordered then [] else [ch.key]

end DataChunk

namespace Receiver

/-- Ordered messages go from one of the streams to the read queue. -/
structure Moves (strmno : StreamNo) (extra keys : List MsgKey) (s t : Receiver) : Prop where
  stream : StreamRx.Moves extra keys (s.onStream strmno) (t.onStream strmno)
  others : ∀ i ≠ strmno, (t.strmin i).waiting = (s.strmin i).waiting
  count : t.streamincnt = s.streamincnt

structure SameQueues (s t : Receiver) : Prop where
  read : t.readQueue = s.readQueue
  strmin : t.strmin = s.strmin
  count : t.streamincnt = s.streamincnt

/-- No control waits for the message of the chunk yet. -/
def brings (s : Receiver) (ch : DataChunk) : List MsgKey :=
  if (s.entry ch).isNone then ch.brings else []

variable {names : ℕ → MsgKey} {cfg : RecvConfig} {s t u : Receiver} {strmno : StreamNo}
  {extra extra' keys keys' : List MsgKey} {ch : DataChunk}

theorem onStream_setAt (s : Receiver) (strmno : StreamNo) (x : StreamRx) :
    (s.setAt strmno x).onStream strmno = x := by
  unfold setAt onStream
  simp

theorem Moves.trans (h : Moves strmno extra keys s t) (h' : Moves strmno extra' keys' t u) :
    Moves strmno (extra ++ extra') (keys ++ keys') s u :=
  ⟨h.stream.trans h'.stream, fun i hi => (h'.others i hi).trans (h.others i hi), h'.count.trans h.count⟩

theorem Moves.of_stream {x : StreamRx} (h : StreamRx.Moves extra keys (s.onStream strmno) x) :
    Moves strmno extra keys s (s.setAt strmno x) := by
  refine ⟨?_, fun i hi => ?_, rfl⟩
  · rw [onStream_setAt]
    exact h
  · change (Function.update s.strmin strmno x.strm i).waiting = _
    rw [Function.update_of_ne hi]

theorem SameQueues.moves (h : SameQueues s t) : Moves strmno [] [] s t := by
  obtain ⟨hread, hstrmin, hcount⟩ := h
  refine ⟨⟨?_, fun k hk => absurd hk List.not_mem_nil, fun k hk => ?_, fun k hk => ?_, .inl ?_⟩, fun i _ => ?_,
    hcount⟩
  · change List.map Control.key t.readQueue = List.map Control.key s.readQueue ++ []
    rw [hread, List.append_nil]
  · change k ∈ (t.strmin strmno).waiting at hk
    rw [hstrmin] at hk
    exact List.mem_append_left [] hk
  · rw [List.append_nil] at hk
    refine .inr (.inl ⟨k, ?_, rfl⟩)
    change k ∈ (t.strmin strmno).waiting
    rw [hstrmin]
    exact hk
  · change (t.strmin strmno).lastSequenceDelivered = (s.strmin strmno).lastSequenceDelivered
    rw [hstrmin]
  · rw [hstrmin]

theorem deliver_moves (hs : s.Keyed names) (h : s.deliver cfg strmno = .ok t) :
    ∃ keys, Moves strmno [] keys s t := by
  obtain ⟨r, hr, rfl⟩ := Attempt.map_ok h
  obtain ⟨keys, hmoves⟩ := deliverReasmCheck_moves (hs.onStream strmno) hr
  exact ⟨keys, .of_stream hmoves⟩

theorem finish_moves {need : Bool} (hs : s.Keyed names) (hnone : s.NoReset)
    (h : s.finish cfg ch need = .ok t) : ∃ keys, Moves ch.streamId [] keys s t := by
  have hbumped := hs.mapped hnone (s.toTsnMap.bumpCumAck ch.tsn)
  have hsame : Moves ch.streamId [] [] s { s with toTsnMap := s.toTsnMap.bumpCumAck ch.tsn } :=
    SameQueues.moves ⟨rfl, rfl, rfl⟩
  unfold finish at h
  dsimp only at h
  split at h
  · rename_i hhead
    cases hnone.head.symm.trans hhead
  · split at h
    · obtain ⟨keys, hmoves⟩ := deliver_moves hbumped.keyed h
      exact ⟨_, hsame.trans hmoves⟩
    · cases h
      exact ⟨[], hsame⟩

/-- A step before the end of the function. -/
theorem Moves.finish {need : Bool} (h : Moves ch.streamId extra keys s t) (ht : t.Keyed names)
    (hnone : t.NoReset) (hu : t.finish cfg ch need = .ok u) : ∃ keys, Moves ch.streamId extra keys s u := by
  obtain ⟨keys', hmoves⟩ := finish_moves ht hnone hu
  have hboth := h.trans hmoves
  rw [List.append_nil] at hboth
  exact ⟨_, hboth⟩

theorem expressDelivered_moves (s : Receiver) (gap : ℕ) {control : Control} (hdata : control.data ≠ [])
    (hflag : control.sinfoFlags.unordered = ch.chunkFlags.unordered) (hkey : control.key = ch.key)
    (h : s.express ch = true) :
    ∃ keys, Moves ch.streamId ch.brings keys s (s.expressDelivered ch gap control) := by
  suffices hstream : ∃ keys, StreamRx.Moves ch.brings keys (s.onStream ch.streamId)
      ((s.expressDelivered ch gap control).onStream ch.streamId) by
    obtain ⟨keys, hmoves⟩ := hstream
    unfold expressDelivered at hmoves
    rw [onStream_setAt] at hmoves
    exact ⟨keys, .of_stream hmoves⟩
  unfold expressDelivered
  rw [onStream_setAt, DataChunk.brings]
  cases hunordered : ch.chunkFlags.unordered with
  | true =>
    simp only [DataChunk.ordered, hunordered]
    have haside : StreamRx.Aside (s.onStream ch.streamId)
        { toRecvAsoc := RecvAsoc.addToReadq
            { s.toRecvAsoc with toTsnMap := s.toTsnMap.setNrPresent ch.tsn gap } control true
          strm := s.strmin ch.streamId } := by
      apply StreamRx.Aside.readUnordered
      · exact hflag.trans hunordered
      · rfl
      · rfl
      · rfl
    exact haside.moves
  | false =>
    unfold express at h
    simp only [DataChunk.ordered, hunordered, Bool.and_eq_true, Bool.not_false, Bool.not_true, Bool.false_or,
      beq_iff_eq] at h
    have hssn : control.sinfoSsn = ch.streamSequence := congrArg MsgKey.ssn hkey
    refine ⟨[control.key], ?_⟩
    simp only [DataChunk.ordered, hunordered]
    rw [← hkey]
    apply StreamRx.Moves.of_next
    · exact RecvAsoc.map_addToReadq_of_data _ control true hdata
    · exact hflag.trans hunordered
    · exact h.2.1.trans hssn.symm
    · exact List.mem_append_right _ List.mem_cons_self
    · exact fun k hk => List.mem_append_left _ hk
    · intro k hk
      obtain hk | hk := List.mem_append.1 hk
      · exact .inr hk
      · exact .inl (List.mem_singleton.1 hk)

theorem storeWhole_moves {gap : ℕ} (hs : s.Keyed names) (hnone : s.NoReset) (hdata : ch.data ≠ [])
    (hwhole : ch.chunkFlags.notFrag = true)
    (hnumber : ∀ c ∈ (s.strmin ch.streamId).inqueue, c.msgId = ch.msgId → c.sinfoSsn = ch.streamSequence)
    (h : s.storeWhole cfg ch gap = .ok t) : ∃ keys, Moves ch.streamId ch.brings keys s t := by
  have hcontrol := buildReadqEntryMac_placed names s hdata
  have hcopied : (ch.buildReadqEntryMac s.nextId).data ≠ [] := by
    have hcopied : (ch.buildReadqEntryMac s.nextId).data = ch.data := if_pos hwhole
    rw [hcopied]
    exact hdata
  have hmade := hs.make hnone ch
  have hmarked := hmade.trans (hmade.keyed.mapped hmade.noReset
    (s.toRecvAsoc.markChunk cfg.doDrain ch.tsn gap).toTsnMap)
  unfold storeWhole at h
  dsimp only at h
  split at h
  · rename_i hexpress
    have hadvances := expressDelivered_advances gap hmade.keyed hmade.noReset hcontrol hcopied rfl hexpress
    obtain ⟨keys, hmoves⟩ := expressDelivered_moves { s with nextId := s.nextId + 1 } gap hcopied rfl rfl
      hexpress
    have hnew : Moves ch.streamId [] [] s { s with nextId := s.nextId + 1 } := SameQueues.moves ⟨rfl, rfl, rfl⟩
    exact (hnew.trans hmoves).finish hadvances.keyed hadvances.noReset h
  · split at h
    · rename_i hparks
      unfold parks at hparks
      rw [hnone.head] at hparks
      cases hparks
    · split at h
      · rename_i hunordered
        rw [hunordered] at hcontrol
        have hrevoked := hmarked.trans (hmarked.keyed.mapped hmarked.noReset
          (TsnMap.markNonRevokable cfg.doDrain
            (s.toRecvAsoc.markChunk cfg.doDrain ch.tsn gap).toTsnMap ch.tsn))
        have hadvances := hrevoked.keyed.readUnordered hrevoked.noReset hcontrol true
        have haside : StreamRx.Aside (s.onStream ch.streamId)
            { toRecvAsoc := RecvAsoc.addToReadq
                { RecvAsoc.markChunk { s.toRecvAsoc with nextId := s.nextId + 1 } cfg.doDrain ch.tsn gap with
                  toTsnMap := TsnMap.markNonRevokable cfg.doDrain
                    (s.toRecvAsoc.markChunk cfg.doDrain ch.tsn gap).toTsnMap ch.tsn }
                (ch.buildReadqEntryMac s.nextId) true
              strm := s.strmin ch.streamId } := by
          apply StreamRx.Aside.readUnordered
          · exact hunordered
          · rfl
          · rfl
          · rfl
        obtain ⟨keys, hmoves⟩ := haside.moves
        have hmoves := Moves.of_stream hmoves
        rw [setAt_same] at hmoves
        rw [DataChunk.brings, if_pos hunordered]
        exact hmoves.finish hadvances.keyed hadvances.noReset h
      · rename_i hordered
        rw [Bool.eq_false_iff.2 hordered] at hcontrol
        obtain ⟨r, hr, h⟩ := Attempt.bind_ok h
        have hadvances := queueTo_advances hmarked.keyed hmarked.noReset hcontrol hcopied hr
        obtain ⟨x, hx, rfl⟩ := Attempt.map_ok hr
        obtain ⟨keys, hmoves⟩ := queueDataToStream_moves (hmarked.keyed.onStream ch.streamId)
          (Bool.eq_false_iff.2 hordered) hcopied hnumber hx
        have hnew : Moves ch.streamId [] [] s { s with
            toRecvAsoc := RecvAsoc.markChunk { s.toRecvAsoc with nextId := s.nextId + 1 } cfg.doDrain
              ch.tsn gap } := SameQueues.moves ⟨rfl, rfl, rfl⟩
        rw [DataChunk.brings, if_neg hordered]
        exact (hnew.trans (.of_stream hmoves)).finish hadvances.keyed hadvances.noReset h

theorem storeFragment_moves {gap : ℕ} (hs : s.Keyed names) (hnone : s.NoReset) (hdata : ch.data ≠ [])
    (hnumber : ∀ c ∈ (s.strmin ch.streamId).inqueue, c.msgId = ch.msgId → c.sinfoSsn = ch.streamSequence)
    (h : s.storeFragment cfg ch gap (s.entry ch) = .ok t) :
    ∃ keys, Moves ch.streamId (s.brings ch) keys s t := by
  obtain ⟨x, hx, h⟩ := Attempt.bind_ok h
  have hchk := recvChunk_fits hdata
  unfold brings
  cases hentry : s.entry ch with
  | none =>
    rw [hentry] at hx h
    have hmade := hs.make hnone ch
    have hmarked := hmade.trans (hmade.keyed.mapped hmade.noReset
      (s.toRecvAsoc.markChunk cfg.doDrain ch.tsn gap).toTsnMap)
    have hplaced := buildReadqEntryMac_placed names s hdata
    have hadvances := hmarked.keyed.setAt hmarked.noReset
      (queueDataForReasm_advances (hmarked.keyed.onStream ch.streamId) hplaced hchk hx)
    obtain ⟨keys, hmoves⟩ := queueDataForReasm_moves (hmarked.keyed.onStream ch.streamId) hplaced hchk
      (fun _ => hnumber) hx
    have hnew : Moves ch.streamId [] [] s { s with
        toRecvAsoc := RecvAsoc.markChunk { s.toRecvAsoc with nextId := s.nextId + 1 } cfg.doDrain
          ch.tsn gap } := SameQueues.moves ⟨rfl, rfl, rfl⟩
    exact (hnew.trans (.of_stream hmoves)).finish hadvances.keyed hadvances.noReset h
  | some control =>
    rw [hentry] at hx h
    have hmarked := hs.mapped hnone (s.toRecvAsoc.markChunk cfg.doDrain ch.tsn gap).toTsnMap
    have hplaced := entry_placed hs hentry
    have hadvances := hmarked.keyed.setAt hmarked.noReset
      (queueDataForReasm_advances (hmarked.keyed.onStream ch.streamId) hplaced hchk hx)
    obtain ⟨keys, hmoves⟩ := queueDataForReasm_moves (hmarked.keyed.onStream ch.streamId) hplaced hchk
      (fun hcreated => absurd hcreated Bool.false_ne_true) hx
    have hnew : Moves ch.streamId [] [] s { s with
        toRecvAsoc := RecvAsoc.markChunk { s.toRecvAsoc with nextId := s.nextId } cfg.doDrain ch.tsn gap } :=
      SameQueues.moves ⟨rfl, rfl, rfl⟩
    exact (hnew.trans (.of_stream hmoves)).finish hadvances.keyed hadvances.noReset h

theorem brings_of_whole (hwhole : ch.chunkFlags.notFrag = true) : s.brings ch = ch.brings := by
  unfold brings entry
  rw [if_pos hwhole]
  rfl

theorem accept_moves {env : ChunkEnv} {gap : ℕ} {r : Receiver × ChunkDone} (hs : s.Keyed names)
    (hnone : s.NoReset) (hdata : ch.data ≠ [])
    (hnumber : ∀ c ∈ (s.strmin ch.streamId).inqueue, c.msgId = ch.msgId → c.sinfoSsn = ch.streamSequence)
    (h : s.accept env ch gap = .ok r) :
    (ch.streamId.toNat < s.streamincnt → r.2.marks = false) ∧ s.SameQueues r.1 ∨
      r.2.marks = true ∧ ch.streamId.toNat < s.streamincnt ∧
        ∃ keys, Moves ch.streamId (s.brings ch) keys s r.1 := by
  unfold accept at h
  split at h
  · rename_i hbad
    cases h
    exact .inl ⟨fun hlt => absurd hlt (not_lt.2 hbad), rfl, rfl, rfl⟩
  · rename_i hgood
    split at h
    · cases h
    · split at h
      · cases h
        exact .inl ⟨fun _ => rfl, rfl, rfl, rfl⟩
      · split at h
        · cases h
        · obtain ⟨u, hu, rfl⟩ := Attempt.map_ok h
          split at hu
          · rename_i hwhole
            rw [brings_of_whole hwhole]
            exact .inr ⟨rfl, not_le.1 hgood, storeWhole_moves hs hnone hdata hwhole hnumber hu⟩
          · exact .inr ⟨rfl, not_le.1 hgood, storeFragment_moves hs hnone hdata hnumber hu⟩

end Receiver

/-- What `sctp_process_a_data_chunk` does to the ordered messages. -/
theorem DataReceiver.processADataChunk_moves {names : ℕ → MsgKey} {env : ChunkEnv} {s : DataReceiver}
    {ch : DataChunk} {r : DataReceiver × ChunkDone} (hs : s.toReceiver.Keyed names)
    (hnone : s.toReceiver.NoReset) (hdata : ch.data ≠ [])
    (hnumber : ∀ c ∈ (s.strmin ch.streamId).inqueue, c.msgId = ch.msgId → c.sinfoSsn = ch.streamSequence)
    (h : s.processADataChunk env ch = .ok r) :
    (ch.streamId.toNat < s.streamincnt → r.2.marks = false) ∧
        s.toReceiver.SameQueues r.1.toReceiver ∨
      r.2.marks = true ∧ ch.streamId.toNat < s.streamincnt ∧
        ∃ keys, Receiver.Moves ch.streamId (s.toReceiver.brings ch) keys s.toReceiver r.1.toReceiver := by
  unfold processADataChunk at h
  dsimp only at h
  split at h
  · cases h
    exact .inl ⟨fun _ => rfl, rfl, rfl, rfl⟩
  · split at h
    · cases h
      exact .inl ⟨fun _ => rfl, rfl, rfl, rfl⟩
    · split at h
      · cases h
        exact .inl ⟨fun _ => rfl, rfl, rfl, rfl⟩
      · split at h
        · cases h
        · obtain ⟨r', hr', rfl⟩ := Attempt.map_ok h
          have hreach := hs.mapped hnone
            (s.toTsnMap.reach (calcTsnToGap ch.tsn s.mappingArrayBaseTsn).toNat)
          have hsame : Receiver.Moves ch.streamId [] [] s.toReceiver { s.toReceiver with
              toTsnMap := s.toTsnMap.reach (calcTsnToGap ch.tsn s.mappingArrayBaseTsn).toNat } :=
            Receiver.SameQueues.moves ⟨rfl, rfl, rfl⟩
          obtain ⟨hmarks, hquiet⟩ | ⟨hmarks, hgood, keys, hmoves⟩ := Receiver.accept_moves hreach.keyed
            hreach.noReset hdata hnumber (Attempt.mapError_ok hr')
          · exact .inl ⟨hmarks, hquiet.read, hquiet.strmin, hquiet.count⟩
          · exact .inr ⟨hmarks, hgood, keys, hsame.trans hmoves⟩

end Sctp
