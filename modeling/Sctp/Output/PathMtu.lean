import Sctp.Output.MedChunkOutput

/-! How long a packet gets: what is in it and the room that is left stay within the path MTU. -/
namespace Sctp
open MedOutput

variable {n : ℕ} {env : OutputEnv n} {net : Fin n} {o : MedOutput n}

theorem authChunkLen_le (hmacAlgo : BitVec 16) : authChunkLen hmacAlgo ≤ 40 := by
  unfold authChunkLen hmacDigestLen
  split_ifs
  · decide
  · decide
  · decide

theorem roomLeft_eq {a b : ℕ} (ha : a < 2 ^ 32) (hb : b ≤ a) : roomLeft a b = a - b := by
  unfold roomLeft
  have h : a + 2 ^ 32 - b = (a - b) + 2 ^ 32 := by omega
  rw [h, Nat.add_mod_right]
  exact Nat.mod_eq_of_lt (by omega)

/-- The comparison in `int` is exact also where the subtraction went below zero. -/
theorem le_of_le_toInt {s a b : ℕ} (ha : a < 2 ^ 32) (hb : b ≤ 2 ^ 31)
    (h : (s : ℤ) ≤ toInt (roomLeft a b)) : s + b ≤ a := by
  by_cases hab : b ≤ a
  · rw [roomLeft_eq ha hab] at h
    unfold toInt at h
    split_ifs at h
    · omega
    · omega
  · have hr : roomLeft a b = a + 2 ^ 32 - b := by
      unfold roomLeft
      exact Nat.mod_eq_of_lt (by omega)
    rw [hr] at h
    unfold toInt at h
    split_ifs at h
    · omega
    · omega

/-- An MTU in which the headers and an AUTH chunk fit. -/
structure AdmitsMtu (env : OutputEnv n) (net : Fin n) (mtu : ℕ) : Prop where
  holds : (env.family net).overhead + env.authLen ≤ mtu
  word : mtu < 2 ^ 32

/-- Fragmentation is allowed just for a packet with a chunk that asks for it. Every other packet fits but for
what is not counted, unless AUTH for data was charged to room that was not there. -/
structure Packet.Fits (env : OutputEnv n) (p : Packet n) : Prop where
  flag : p.noFragmentflg = !p.fragmentOk
  drawn : p.authOverdrawn = true → env.authIsRequired dataId = true
  length_le : p.fragmentOk = false → p.authOverdrawn = false → p.length ≤ p.netMtu + uncounted p.pieces

def countedBy (pieces : List Piece) : ℕ := (pieces.map Piece.counted).sum

@[simp] theorem countedBy_nil : countedBy [] = 0 := rfl

@[simp] theorem countedBy_append (l l' : List Piece) : countedBy (l ++ l') = countedBy l + countedBy l' := by
  simp [countedBy]

@[simp] theorem countedBy_singleton (c : Piece) : countedBy [c] = c.counted := by
  simp [countedBy]

theorem usedBy_le (l : List Piece) : usedBy l ≤ countedBy l + uncounted l := by
  induction l with
  | nil => exact le_refl _
  | cons c l ih =>
    simp only [usedBy, countedBy, uncounted, List.map_cons, List.sum_cons] at ih ⊢
    omega

@[simp] theorem usedBy_append (l l' : List Piece) : usedBy (l ++ l') = usedBy l + usedBy l' := by
  simp [usedBy]

@[simp] theorem usedBy_singleton (c : Piece) : usedBy [c] = c.length := by
  simp [usedBy]

structure SoundOutput (env : OutputEnv n) (o : MedOutput n) : Prop where
  fits : ∀ p ∈ o.packets, p.Fits env
  admits : ∀ net, AdmitsMtu env net (o.netMtu net)

/-- A packet is being filled. `kept` is room that is neither used nor left. -/
structure Filling (env : OutputEnv n) (net : Fin n) (kept : ℕ) (o : MedOutput n) : Prop extends
    SoundOutput env o where
  flag : o.noFragmentflg = !o.outchain.any Piece.fragmentOk
  drawn : o.authOverdrawn = true → env.authIsRequired dataId = true
  room : o.noFragmentflg = true → o.authOverdrawn = false →
    (env.family net).overhead + countedBy o.outchain + kept + o.mtu ≤ o.netMtu net

theorem SoundOutput.room_eq (h : SoundOutput env o) (net : Fin n) :
    o.room env net = o.netMtu net - (env.family net).overhead := by
  have ha := h.admits net
  have hm := ha.holds
  exact roomLeft_eq ha.word (by omega)

theorem Filling.mtu_lt {kept : ℕ} (h : Filling env net kept o) (hf : o.noFragmentflg = true)
    (ha : o.authOverdrawn = false) : o.mtu < 2 ^ 32 := by
  have hr := h.room hf ha
  have hw := (h.admits net).word
  omega

/-- The packet as it is handed down fits. -/
theorem Filling.packet_fits {kept : ℕ} (h : Filling env net kept o) :
    (o.packet env net).Fits env := by
  constructor
  · exact h.flag
  · exact h.drawn
  · intro hf ha
    have hflag : o.noFragmentflg = true := by
      rw [h.flag]
      simpa [Packet.fragmentOk, packet] using hf
    have hr := h.room hflag ha
    have hused := usedBy_le o.outchain
    show (env.family net).overhead + usedBy o.outchain ≤ o.netMtu net + uncounted o.outchain
    omega

/-- Every MTU that the lower layer reports is admitted. -/
def AdmitsAnswers (env : OutputEnv n) : Prop :=
  ∀ k net mtu, (env.answer k).netMtu = some mtu → AdmitsMtu env net mtu

theorem SoundOutput.lowlevelChunkOutput (hE : AdmitsAnswers env) (h : SoundOutput env o)
    (hp : (o.packet env net).Fits env) : SoundOutput env (o.lowlevelChunkOutput env net) := by
  constructor
  · intro p hmem
    rcases List.mem_append.mp hmem with hmem | hmem
    · exact h.fits p hmem
    · rw [List.mem_singleton.mp hmem]
      exact hp
  · intro net'
    unfold MedOutput.lowlevelChunkOutput
    dsimp only
    cases hm : (o.answered env).netMtu with
    | none => exact h.admits net'
    | some mtu =>
      dsimp only
      by_cases hn : net' = net
      · subst hn
        rw [Function.update_self]
        exact hE _ net' mtu hm
      · rw [Function.update_of_ne hn]
        exact h.admits net'

/-- What holds of the state that a step of a control loop leaves. -/
def Proceeds (env : OutputEnv n) (net : Fin n) (o : MedOutput n) : Flow → Prop
  | .next | .leave => Filling env net 0 o ∧ o.authOverdrawn = false
  | .failed | .noMemory => SoundOutput env o

theorem Filling.empty (h : SoundOutput env o) (hm : o.mtu = o.room env net)
    (ho : o.outchain = []) (hf : o.noFragmentflg = true)
    (hd : o.authOverdrawn = true → env.authIsRequired dataId = true) :
    Filling env net 0 o := by
  refine ⟨h, ?_, hd, ?_⟩
  · simp [ho, hf]
  · intro _ _
    have ha := (h.admits net).holds
    rw [hm, h.room_eq, ho, countedBy_nil]
    omega

theorem proceeds_flush (hE : AdmitsAnswers env) (h : Filling env net 0 o)
    (ha : o.authOverdrawn = false) :
    Proceeds env net (o.flush env net).1 (o.flush env net).2 := by
  have hs := h.toSoundOutput.lowlevelChunkOutput hE h.packet_fits
  unfold flush
  cases (o.answered env).error with
  | some e => exact hs
  | none =>
    constructor
    · apply Filling.empty
      · exact ⟨hs.fits, hs.admits⟩
      · rfl
      · rfl
      · rfl
      · exact h.drawn
    · exact ha

theorem omtu_le (env : OutputEnv n) (o : MedOutput n) (id : BitVec 8) : o.omtu env id ≤ 40 := by
  unfold omtu
  split_ifs
  · exact authChunkLen_le env.peerHmacId
  · omega

/-- The AUTH chunk takes no more than was kept for it. -/
theorem countedBy_addAuthChunk (env : OutputEnv n) (o : MedOutput n) (id : BitVec 8) :
    countedBy (o.addAuthChunk env id).outchain + (o.addAuthChunk env id).omtu env id ≤
      countedBy o.outchain + o.omtu env id := by
  unfold addAuthChunk
  split_ifs with h
  · simp only [Bool.and_eq_true] at h
    simp [omtu, h.1.1, h.1.2, authPiece]
  · exact le_refl _

@[simp] theorem addAuthChunk_mtu (id : BitVec 8) : (o.addAuthChunk env id).mtu = o.mtu := by
  unfold addAuthChunk
  split_ifs <;> rfl

@[simp] theorem addAuthChunk_noFragmentflg (id : BitVec 8) :
    (o.addAuthChunk env id).noFragmentflg = o.noFragmentflg := by
  unfold addAuthChunk
  split_ifs <;> rfl

@[simp] theorem addAuthChunk_authOverdrawn (id : BitVec 8) :
    (o.addAuthChunk env id).authOverdrawn = o.authOverdrawn := by
  unfold addAuthChunk
  split_ifs <;> rfl

@[simp] theorem addAuthChunk_packets (id : BitVec 8) :
    (o.addAuthChunk env id).packets = o.packets := by
  unfold addAuthChunk
  split_ifs <;> rfl

@[simp] theorem addAuthChunk_netMtu (id : BitVec 8) :
    (o.addAuthChunk env id).netMtu = o.netMtu := by
  unfold addAuthChunk
  split_ifs <;> rfl

@[simp] theorem addAuthChunk_any (id : BitVec 8) :
    (o.addAuthChunk env id).outchain.any Piece.fragmentOk = o.outchain.any Piece.fragmentOk := by
  unfold addAuthChunk
  split_ifs
  · simp [authPiece]
  · rfl

theorem SoundOutput.addAuthChunk (id : BitVec 8) (h : SoundOutput env o) :
    SoundOutput env (o.addAuthChunk env id) := by
  constructor
  · simpa using h.fits
  · simpa using h.admits

/-- A chunk is appended that fits or that may be fragmented. -/
theorem Filling.append {kept length sendSize omtu : ℕ} {flags : BitVec 16} (hs : SoundOutput env o)
    (hflag : o.noFragmentflg = !o.outchain.any Piece.fragmentOk)
    (hd : o.authOverdrawn = true → env.authIsRequired dataId = true)
    (hc : fragmentOk flags = false → o.noFragmentflg = true → o.authOverdrawn = false →
      (env.family net).overhead + countedBy o.outchain + sendSize + kept +
        (o.mtu - (sendSize + omtu)) ≤ o.netMtu net) :
    Filling env net kept (o.append length sendSize omtu flags) := by
  refine ⟨⟨hs.fits, hs.admits⟩, ?_, hd, ?_⟩
  · simp [MedOutput.append, hflag]
  · intro hf ha
    simp only [MedOutput.append, Bool.and_eq_true, Bool.not_eq_true'] at hf
    have hr := hc hf.2 hf.1 ha
    simp only [MedOutput.append, countedBy_append, countedBy_singleton]
    omega

/-- What a control loop notes down leaves the packet alone. -/
def NotesOnly (env : OutputEnv n) (net : Fin n) (after : MedOutput n → MedOutput n) : Prop :=
  ∀ o, Filling env net 0 o ∧ o.authOverdrawn = false →
    Filling env net 0 (after o) ∧ (after o).authOverdrawn = false

theorem notesOnly_noDataChunks :
    NotesOnly env net fun o => { o with noDataChunks := true } := by
  intro o h
  exact ⟨⟨⟨h.1.fits, h.1.admits⟩, h.1.flag, h.1.drawn, h.1.room⟩, h.2⟩

theorem notesOnly_noteCookie (id : BitVec 8) : NotesOnly env net (noteCookie id) := by
  intro o h
  exact ⟨⟨⟨h.1.fits, h.1.admits⟩, h.1.flag, h.1.drawn, h.1.room⟩, h.2⟩

theorem proceeds_addControl {after : MedOutput n → MedOutput n} {sentChunk c : ControlChunk n}
    (hE : AdmitsAnswers env) (h : Filling env net 0 o) (ha : o.authOverdrawn = false)
    (hafter : NotesOnly env net after)
    (hc : fragmentOk c.flags = false → o.noFragmentflg = true →
      c.sendSize + o.omtu env c.id ≤ o.mtu) :
    Proceeds env net (o.addControl env net after sentChunk c).1
      (o.addControl env net after sentChunk c).2.2 := by
  have hs := h.toSoundOutput.addAuthChunk c.id
  unfold addControl
  dsimp only
  split_ifs with hcopy hmtu
  all_goals try exact hs
  all_goals
    have happ : Filling env net 0
        ((o.addAuthChunk env c.id).append (c.copied env c.canTakeData) c.sendSize (o.omtu env c.id)
          c.flags) := by
      apply Filling.append hs
      · simpa using h.flag
      · simpa using h.drawn
      · intro hf hn _
        have hn' : o.noFragmentflg = true := by simpa using hn
        have hr := h.room hn' ha
        have hfit := hc hf hn'
        have hu := countedBy_addAuthChunk env o c.id
        simp only [addAuthChunk_mtu, addAuthChunk_netMtu]
        omega
    have hdone := hafter _ ⟨happ, by simpa [MedOutput.append] using ha⟩
  · exact proceeds_flush hE hdone.1 hdone.2
  · exact hdone

theorem proceeds_asconfChunk (hE : AdmitsAnswers env) (h : Filling env net 0 o)
    (ha : o.authOverdrawn = false) (c : ControlChunk n) :
    Proceeds env net (o.asconfChunk env net c).1 (o.asconfChunk env net c).2.2 := by
  unfold asconfChunk
  split_ifs with _ _ hfit
  · exact ⟨h, ha⟩
  · exact ⟨h, ha⟩
  · apply proceeds_addControl hE h ha notesOnly_noDataChunks
    intro hf hn
    have hlt := hfit.resolve_right (by simp [hf])
    exact le_of_le_toInt (h.mtu_lt hn ha) (by have := omtu_le env o c.id; omega) hlt.le
  · exact ⟨h, ha⟩

theorem proceeds_controlChunk (hE : AdmitsAnswers env) (h : Filling env net 0 o)
    (ha : o.authOverdrawn = false) (c : ControlChunk n) :
    Proceeds env net (o.controlChunk env net c).1 (o.controlChunk env net c).2.2 := by
  unfold controlChunk
  split_ifs with _ hfit
  · exact ⟨h, ha⟩
  · apply proceeds_addControl hE h ha (notesOnly_noteCookie c.id)
    intro hf hn
    have hle := hfit.resolve_right (by simp [hf])
    exact le_of_le_toInt (h.mtu_lt hn ha) (by have := omtu_le env o c.id; omega) hle
  · exact ⟨h, ha⟩

/-- A loop over a control queue, by induction on what is left of the queue. -/
theorem proceeds_serve {f : MedOutput n → ControlChunk n → MedOutput n × ControlChunk n × Flow}
    (hf : ∀ o c, Filling env net 0 o → o.authOverdrawn = false →
      Proceeds env net (f o c).1 (f o c).2.2) :
    ∀ (q : List (ControlChunk n)) (o : MedOutput n), Filling env net 0 o →
      o.authOverdrawn = false → Proceeds env net (serve f o q).1 (serve f o q).2.2 := by
  intro q
  induction q with
  | nil =>
    intro o h ha
    exact ⟨h, ha⟩
  | cons c cs ih =>
    intro o h ha
    have hstep := hf o c h ha
    unfold serve
    dsimp only
    split_ifs with hnext
    · rw [hnext] at hstep
      exact ih (f o c).1 hstep.1 hstep.2
    · exact hstep

/-- The invariant of the data loop: room for the AUTH chunk is kept until the chunk is there. -/
def FillingData (env : OutputEnv n) (net : Fin n) (o : MedOutput n) : Prop :=
  Filling env net (o.omtu env dataId) o

/-- AUTH is charged to the room. -/
theorem Filling.charge {kept mtu : ℕ} {drawn : Bool} (h : Filling env net 0 o)
    (ha : o.authOverdrawn = false)
    (hd : env.authIsRequired dataId = true)
    (hm : o.noFragmentflg = true → drawn = false → kept + mtu ≤ o.mtu) :
    Filling env net kept { o with mtu := mtu, authOverdrawn := drawn } := by
  refine ⟨⟨h.fits, h.admits⟩, h.flag, fun _ => hd, ?_⟩
  intro hf hdrawn
  have hr := h.room hf ha
  have hle := hm hf hdrawn
  show (env.family net).overhead + countedBy o.outchain + kept + mtu ≤ o.netMtu net
  omega

theorem fillingData_reserveAuth (h : Filling env net 0 o) (ha : o.authOverdrawn = false) :
    FillingData env net (o.reserveAuth env) := by
  unfold reserveAuth
  split_ifs with hreq
  · simp only [Bool.and_eq_true, Bool.not_eq_true'] at hreq
    apply h.charge ha hreq.1
    intro hf hover
    have hle : env.authLen ≤ o.mtu := by simpa using hover
    rw [roomLeft_eq (h.mtu_lt hf ha) hle]
    simp only [omtu, hreq.1, hreq.2, Bool.not_false, Bool.and_self, if_true]
    omega
  · have hkept : o.omtu env dataId = 0 := by
      unfold omtu
      rw [if_neg]
      rwa [Bool.and_comm]
    unfold FillingData
    rw [hkept]
    exact h

theorem fillingData_authForData (h : FillingData env net o) (c : QueuedChunk n) :
    FillingData env net (o.authForData env c) := by
  unfold authForData
  by_cases hreq : env.authIsRequired dataId
  · rw [if_pos hreq]
    have hs := h.toSoundOutput.addAuthChunk dataId
    refine ⟨⟨hs.fits, hs.admits⟩, by simpa using h.flag, by simpa using h.drawn, ?_⟩
    intro hf hover
    have hr := h.room (by simpa using hf) (by simpa using hover)
    have hu := countedBy_addAuthChunk env o dataId
    change _ + countedBy (o.addAuthChunk env dataId).outchain +
      (o.addAuthChunk env dataId).omtu env dataId + (o.addAuthChunk env dataId).mtu ≤
        (o.addAuthChunk env dataId).netMtu net
    simp only [addAuthChunk_mtu, addAuthChunk_netMtu]
    omega
  · rw [if_neg hreq]
    exact h

@[simp] theorem authForData_mtu (c : QueuedChunk n) : (o.authForData env c).mtu = o.mtu := by
  unfold authForData
  by_cases hreq : env.authIsRequired dataId
  · rw [if_pos hreq]
    exact addAuthChunk_mtu dataId
  · rw [if_neg hreq]

theorem fillingData_addData (h : FillingData env net o) {c : QueuedChunk n}
    (hc : fragmentOk c.flags = false → c.sendSize ≤ o.mtu) :
    FillingData env net (o.addData env c).1 := by
  have hauth := fillingData_authForData h c
  unfold addData
  dsimp only
  split_ifs
  all_goals try exact hauth
  all_goals
    have happ : Filling env net ((o.authForData env c).omtu env dataId)
        ((o.authForData env c).append c.sendSize c.sendSize 0 c.flags) := by
      apply Filling.append hauth.toSoundOutput hauth.flag hauth.drawn
      intro hf hn hover
      have hr := hauth.room hn hover
      have hle := hc hf
      rw [authForData_mtu] at hr ⊢
      omega
    exact ⟨⟨happ.fits, happ.admits⟩, happ.flag, happ.drawn, happ.room⟩

theorem fillingData_dataChunk (h : FillingData env net o) (omtu : ℕ) (c : QueuedChunk n) :
    FillingData env net (o.dataChunk env net omtu c).1 := by
  unfold dataChunk
  dsimp only
  split_ifs with _ _ hfit _
  all_goals try exact h
  apply fillingData_addData h
  intro hf
  simp only [dataFits, hf, Bool.false_and, Bool.or_false, Bool.and_eq_true,
    decide_eq_true_eq] at hfit
  exact hfit.1

/-- The loop over the send queue, by induction on what is left of it. -/
theorem fillingData_gather (omtu : ℕ) :
    ∀ (q : List (QueuedChunk n)) (o : MedOutput n), FillingData env net o →
      FillingData env net (gather env net omtu o q).1 := by
  intro q
  induction q with
  | nil =>
    intro o h
    exact h
  | cons c cs ih =>
    intro o h
    have hstep := fillingData_dataChunk h omtu c
    unfold gather
    dsimp only
    split_ifs
    · exact ih (o.dataChunk env net omtu c).1 hstep
    · exact hstep

theorem sound_cleanUpDatalist (h : SoundOutput env o) :
    SoundOutput env (o.cleanUpDatalist env net) := by
  unfold MedOutput.cleanUpDatalist
  have hrun : ∀ (l : List (QueuedChunk n)) (o : MedOutput n), SoundOutput env o →
      SoundOutput env (l.foldl (cleanUpData env net) o) := by
    intro l
    induction l with
    | nil =>
      intro o h
      exact h
    | cons c cs ih =>
      intro o h
      exact ih _ ⟨h.fits, h.admits⟩
  exact hrun _ _ ⟨h.fits, h.admits⟩

theorem sound_sendRest {kept : ℕ} (hE : AdmitsAnswers env) (h : Filling env net kept o) :
    SoundOutput env (o.sendRest env net).1 := by
  have hout : SoundOutput env ({ o with cookie := false }.lowlevelChunkOutput env net) := by
    apply SoundOutput.lowlevelChunkOutput hE
    · exact ⟨h.fits, h.admits⟩
    · exact h.packet_fits
  unfold sendRest
  by_cases hempty : o.outchain = []
  · rw [if_pos hempty]
    exact h.toSoundOutput
  · rw [if_neg hempty]
    dsimp only
    cases (o.answered env).error with
    | some e => exact hout
    | none => exact sound_cleanUpDatalist ⟨hout.fits, hout.admits⟩

theorem sound_dataStage (hE : AdmitsAnswers env) (h : Filling env net 0 o)
    (ha : o.authOverdrawn = false) : SoundOutput env (o.dataStage env net).1 := by
  have hres := fillingData_reserveAuth h ha
  have hgath := fillingData_gather (dataOmtu env net (o.reserveAuth env))
    (o.reserveAuth env).sendQueue _ hres
  unfold dataStage
  dsimp only
  split_ifs
  · exact sound_sendRest hE h
  · exact ⟨hgath.fits, hgath.admits⟩
  · apply sound_sendRest hE
    exact ⟨⟨hgath.fits, hgath.admits⟩, hgath.flag, hgath.drawn, hgath.room⟩
  · exact sound_sendRest hE hres

/-- The stage behind a control loop. -/
theorem sound_following {stage : OutputEnv n → Fin n → MedOutput n → MedOutput n × Flow}
    (hstage : ∀ o, Filling env net 0 o → o.authOverdrawn = false →
      SoundOutput env (stage env net o).1) {flow : Flow} (h : Proceeds env net o flow) :
    SoundOutput env (following env net stage o flow).1 := by
  cases flow with
  | next => exact hstage o h.1 h.2
  | leave => exact hstage o h.1 h.2
  | failed => exact h
  | noMemory => exact h

/-- The queue that a control loop leaves is put back. -/
theorem Proceeds.setQueues {flow : Flow} (h : Proceeds env net o flow)
    (asconfQueue controlQueue : List (ControlChunk n)) :
    Proceeds env net { o with asconfQueue := asconfQueue, controlQueue := controlQueue } flow := by
  cases flow with
  | next => exact ⟨⟨⟨h.1.fits, h.1.admits⟩, h.1.flag, h.1.drawn, h.1.room⟩, h.2⟩
  | leave => exact ⟨⟨⟨h.1.fits, h.1.admits⟩, h.1.flag, h.1.drawn, h.1.room⟩, h.2⟩
  | failed => exact ⟨h.fits, h.admits⟩
  | noMemory => exact ⟨h.fits, h.admits⟩

theorem sound_controlStage (hE : AdmitsAnswers env) (o : MedOutput n)
    (h : Filling env net 0 o) (ha : o.authOverdrawn = false) :
    SoundOutput env (o.controlStage env net).1 := by
  have hloop := proceeds_serve (fun o c h ha => proceeds_controlChunk hE h ha c)
    o.controlQueue o h ha
  apply sound_following
  · intro o h ha
    exact sound_dataStage hE h ha
  · exact hloop.setQueues _ _

theorem sound_asconfStage (hE : AdmitsAnswers env) (h : Filling env net 0 o)
    (ha : o.authOverdrawn = false) : SoundOutput env (o.asconfStage env net).1 := by
  have hloop := proceeds_serve (fun o c h ha => proceeds_asconfChunk hE h ha c)
    o.asconfQueue o h ha
  apply sound_following (sound_controlStage hE)
  exact hloop.setQueues _ _

theorem sound_visitNet (hE : AdmitsAnswers env) (h : SoundOutput env o) (net : Fin n) :
    SoundOutput env (o.visitNet env net).1 := by
  unfold visitNet
  split_ifs
  · exact h
  · apply sound_asconfStage hE
    · apply Filling.empty
      · exact ⟨h.fits, h.admits⟩
      · rfl
      · rfl
      · rfl
      · nofun
    · rfl

theorem sound_visitNets (hE : AdmitsAnswers env) :
    ∀ (nets : List (Fin n)) (o : MedOutput n), SoundOutput env o →
      SoundOutput env (visitNets env nets o).1 := by
  intro nets
  induction nets with
  | nil =>
    intro o h
    exact h
  | cons net nets ih =>
    intro o h
    have hvisit := sound_visitNet hE h net
    unfold visitNets
    dsimp only
    split_ifs
    · exact ih _ hvisit
    · exact hvisit

theorem sound_medChunkOutput (hE : AdmitsAnswers env) (h : SoundOutput env o) :
    SoundOutput env (o.medChunkOutput env) := by
  unfold medChunkOutput
  split_ifs
  · exact h
  · unfold serviceNets
    dsimp only
    have hfirst := sound_visitNets hE (env.nets.dropWhile fun net => env.startAt ≠ some net)
      { o with
        controlQueue := o.controlQueue.map fun c =>
          { c with whoTo := some (destination env c.whoTo) } } ⟨h.fits, h.admits⟩
    split_ifs
    · exact hfirst
    · exact sound_visitNets hE _ _ hfirst

section retransmission

variable {renv : RetranEnv n} {q : List (SentChunk n)} {dest : Fin n} {b : Bundle}

/-- The bundles that come up while a packet of data is gathered. -/
inductive Bundling (renv : RetranEnv n) (q : List (SentChunk n)) (dest : Fin n) : Bundle → Prop
  | start : Bundling renv q dest { dataList := [], mtu := renv.mtu dest, auth := none }
  | add {b : Bundle} {c : SentChunk n} {i : ℕ} (h : Bundling renv q dest b)
      (hi : q[i]? = some c) : Bundling renv q dest (b.add renv c i)

def sizeAt (q : List (SentChunk n)) (i : ℕ) : ℕ := ((q[i]?).map SentChunk.sendSize).getD 0

def Bundle.used (renv : RetranEnv n) (q : List (SentChunk n)) (b : Bundle) : ℕ :=
  (b.dataList.map (sizeAt q)).sum + if b.auth.isSome then renv.authChunkLen.getD 0 else 0

/-- A required AUTH chunk comes with the first chunk. -/
theorem Bundling.untouched (h : Bundling renv q dest b) (hreq : renv.authChunkLen.isSome = true)
    (ha : b.auth = none) : b.dataList = [] ∧ b.mtu = renv.mtu dest := by
  cases h with
  | start => exact ⟨rfl, rfl⟩
  | @add b' c i h hi =>
    exfalso
    cases hb : b'.auth with
    | none => simp [Bundle.add, hreq, hb] at ha
    | some k => simp [Bundle.add, hreq, hb] at ha

theorem Bundle.dmtu_eq (renv : RetranEnv n) (b : Bundle) :
    b.dmtu renv = if b.auth.isNone then renv.authChunkLen.getD 0 else 0 := by
  unfold Bundle.dmtu
  cases renv.authChunkLen with
  | none => simp
  | some len => simp

/-- No subtraction of `dmtu` wraps: what AUTH takes is only subtracted from the whole room. -/
theorem Bundling.dmtu_le (h : Bundling renv q dest b)
    (hlen : ∀ len, renv.authChunkLen = some len → len ≤ renv.mtu dest) :
    b.dmtu renv ≤ b.mtu := by
  unfold Bundle.dmtu
  cases hreq : renv.authChunkLen with
  | none => exact Nat.zero_le _
  | some len =>
    dsimp only
    split_ifs with ha
    · have hu := h.untouched (by simp [hreq]) (by simpa using ha)
      rw [hu.2]
      exact hlen len hreq
    · exact Nat.zero_le _

theorem Bundling.mtu_le (h : Bundling renv q dest b) : b.mtu ≤ renv.mtu dest := by
  induction h with
  | start => exact le_refl _
  | add h hi ih =>
    simp only [Bundle.add]
    omega

/-- The bundle fits with the room that is left, or is one chunk that may be fragmented. -/
def Bundle.Fits (renv : RetranEnv n) (q : List (SentChunk n)) (dest : Fin n) (b : Bundle) : Prop :=
  b.used renv q + b.mtu ≤ renv.mtu dest ∨
    b.mtu = 0 ∧ ∃ i c, b.dataList = [i] ∧ q[i]? = some c ∧ fragmentOk c.flags = true

theorem Bundle.used_add {c : SentChunk n} {i : ℕ} (hi : q[i]? = some c) :
    (b.add renv c i).used renv q = b.used renv q + c.sendSize + b.dmtu renv := by
  have hsize : sizeAt q i = c.sendSize := by simp [sizeAt, hi]
  rw [Bundle.dmtu_eq]
  unfold Bundle.used Bundle.add
  cases renv.authChunkLen with
  | none => simp [hsize]
  | some len =>
    cases b.auth with
    | none =>
      simp [hsize]
    | some k =>
      simp [hsize]
      omega

/-- A chunk that fits is added. -/
theorem Bundle.Fits.add {c : SentChunk n} {i : ℕ} (hg : Bundling renv q dest b)
    (h : b.Fits renv q dest) (hi : q[i]? = some c) (hpos : 0 < c.sendSize)
    (hlen : ∀ len, renv.authChunkLen = some len → len ≤ renv.mtu dest)
    (hword : renv.mtu dest < 2 ^ 32) (hc : c.sendSize ≤ roomLeft b.mtu (b.dmtu renv)) :
    (b.add renv c i).Fits renv q dest := by
  have hd := hg.dmtu_le hlen
  have hm := hg.mtu_le
  rw [roomLeft_eq (by omega) hd] at hc
  rcases h with h | ⟨hzero, _⟩
  · left
    rw [Bundle.used_add hi]
    simp only [Bundle.add]
    omega
  · omega

/-- The chunks behind the first, by induction on their places. -/
theorem fits_bundleForward (hpos : ∀ c ∈ q, 0 < c.sendSize)
    (hlen : ∀ len, renv.authChunkLen = some len → len ≤ renv.mtu dest)
    (hword : renv.mtu dest < 2 ^ 32) :
    ∀ (is : List ℕ) (b b' : Bundle), Bundling renv q dest b → b.Fits renv q dest →
      bundleForward renv dest q is b = some b' → b'.Fits renv q dest := by
  intro is
  induction is with
  | nil =>
    intro b b' _ h hb
    simp only [bundleForward, Option.some.injEq] at hb
    exact hb ▸ h
  | cons i is ih =>
    intro b b' hg h hb
    unfold bundleForward at hb
    cases hi : q[i]? with
    | none =>
      simp only [hi, Option.some.injEq] at hb
      exact hb ▸ h
    | some c =>
      simp only [hi] at hb
      have hstep := fun hc => h.add hg hi (hpos c (List.mem_of_getElem? hi)) hlen hword hc
      split_ifs at hb with hskip hc hkey hcopy hfull
      · exact ih b b' hg h hb
      · simp only [Option.some.injEq] at hb
        exact hb ▸ h
      · simp only [Option.some.injEq] at hb
        exact hb ▸ hstep hc
      · exact ih _ b' (hg.add hi) (hstep hc) hb
      · simp only [Option.some.injEq] at hb
        exact hb ▸ h

theorem fits_gatherBundle {c : SentChunk n} {i : ℕ} {oneChunk : Bool} {b : Bundle}
    (hpos : ∀ c ∈ q, 0 < c.sendSize)
    (hlen : ∀ len, renv.authChunkLen = some len → len ≤ renv.mtu c.whoTo)
    (hword : renv.mtu c.whoTo < 2 ^ 32) (hi : q[i]? = some c)
    (hb : gatherBundle renv q i c oneChunk = some b) : b.Fits renv q c.whoTo := by
  have hg : Bundling renv q c.whoTo { dataList := [], mtu := renv.mtu c.whoTo, auth := none } :=
    Bundling.start
  have hempty : Bundle.Fits renv q c.whoTo
      { dataList := [], mtu := renv.mtu c.whoTo, auth := none } := by
    left
    simp [Bundle.used]
  have hstep : c.sendSize ≤ roomLeft (renv.mtu c.whoTo)
        (Bundle.dmtu renv { dataList := [], mtu := renv.mtu c.whoTo, auth := none }) ∨
        fragmentOk c.flags = true →
      (Bundle.add renv { dataList := [], mtu := renv.mtu c.whoTo, auth := none } c i).Fits
        renv q c.whoTo := by
    intro hc
    by_cases hfit : c.sendSize ≤ roomLeft (renv.mtu c.whoTo)
        (Bundle.dmtu renv { dataList := [], mtu := renv.mtu c.whoTo, auth := none })
    · exact hempty.add hg hi (hpos c (List.mem_of_getElem? hi)) hlen hword hfit
    · have hd := hg.dmtu_le hlen
      dsimp only at hd
      rw [roomLeft_eq hword hd] at hfit
      right
      constructor
      · simp only [Bundle.add]
        omega
      · exact ⟨i, c, rfl, hi, hc.resolve_left (by rwa [roomLeft_eq hword hd])⟩
  unfold gatherBundle at hb
  dsimp only at hb
  split_ifs at hb with hc hcopy hone hone
  · simp only [Option.some.injEq] at hb
    exact hb ▸ hstep hc
  · exact fits_bundleForward hpos hlen hword _ _ b (hg.add hi) (hstep hc) hb
  · simp only [Option.some.injEq] at hb
    exact hb ▸ hempty
  · exact fits_bundleForward hpos hlen hword _ _ b hg hempty hb

end retransmission

/-- A retransmitted control chunk goes alone, behind its AUTH chunk. -/
theorem retransmitControl_length {netMtu : Fin n → ℕ} {strReset : ControlChunk n → Bool}
    {cq : List (ControlChunk n)} {p : Packet n}
    (hp : retransmitControl env netMtu strReset cq = some p) :
    ∃ c ∈ cq,
      p.pieces.filter (fun d => !d.isAuth) = [⟨c.copied env false, c.sendSize, fragmentOk c.flags, false⟩] ∧
      p.length ≤ p.headers + env.authLen + c.copied env false := by
  obtain ⟨c, hc, rfl⟩ := Option.map_eq_some_iff.mp hp
  refine ⟨c, List.mem_of_find?_eq_some hc, ?_, ?_⟩
  · unfold controlPacket
    dsimp only
    split_ifs
    · simp [authPiece]
    · simp
  · unfold Packet.length controlPacket
    dsimp only
    split_ifs
    · simp only [usedBy_append, usedBy_singleton, authPiece]
      omega
    · simp only [List.nil_append, usedBy_singleton]
      omega

/-- One IPv4 destination with nothing in flight; DATA needs AUTH if `dataAuth` is set. -/
def oneNetEnv (dataAuth : Bool) : OutputEnv 1 where
  cfg :=
    { swsSender := 0
      peerChunkOh := 0
      strictSacks := true
      cmtOnOff := false
      cmtUseDac := false
      prsctpSupported := true }
  nets := [0]
  startAt := some 0
  family := fun _ => .inet
  boundV6 := false
  cwnd := fun _ => 4000
  unconfirmed := fun _ => false
  pf := fun _ => false
  primaryDestination := 0
  alternate := none
  dataState := true
  recvBufferSplitting := false
  sendBufferSplitting := false
  maxRwndPerDest := 0
  maxSendPerDest := 0
  authIsRequired := fun id => dataAuth && id == dataId
  peerHmacId := 1
  smallCopy := 1000
  addsAuth := fun _ _ => true
  copies := fun _ _ => true
  answer := fun _ => { error := none, sizeReset := none, netMtu := none }

def controlOf (id : BitVec 8) (sendSize : ℕ) (flags : BitVec 16) : ControlChunk 1 where
  id := id
  canTakeData := true
  hasData := true
  sent := datagramUnsent
  sndCount := 0
  sendSize := sendSize
  dataLen := size32 sendSize
  copyByRef := false
  flags := flags
  whoTo := some 0

/-- An MTU of 600, the given control chunks and, on the send queue, one chunk of 500 bytes. -/
def queued (control : List (ControlChunk 1)) : MedOutput 1 where
  netMtu := fun _ => 600
  flightSize := fun _ => 0
  totalFlight := 0
  peersRwnd := 4000
  asconfQueue := []
  controlQueue := control
  sendQueue :=
    [{ tsn := 1, sendSize := 500, bookSize := 500, flags := 0, whoTo := none, authKeyid := 0,
       inDataList := false }]
  sackGoesTo := none
  auth := false
  authKeyid := 0
  overrideOk := true
  noDataChunks := false
  cookie := false
  mtu := 0
  rMtu := 0
  oneChunk := false
  noFragmentflg := true
  bundleAt := 0
  outchain := []
  authOverdrawn := false
  packets := []

/-- The AUTH chunk for DATA is charged to 16 bytes, and the room wraps. -/
example :
    ((queued [controlOf heartbeatRequestId 552 0]).medChunkOutput (oneNetEnv true)).packets.map
      Packet.length = [32 + 552 + 28 + 500] := by
  decide +kernel

/-- The padding of HEARTBEAT-ACKs is not counted. -/
example :
    ((queued [controlOf heartbeatAckId 33 0, controlOf heartbeatAckId 33 0]).medChunkOutput
      (oneNetEnv false)).packets.map Packet.length = [32 + 36 + 36 + 500] := by
  decide +kernel

end Sctp
