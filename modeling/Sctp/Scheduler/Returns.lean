import Sctp.Scheduler.Exact

/-! The searches through the wheel come to an end, unless every stream that they look at waits for
another destination and the stream last served is not among those that they come back to. -/
namespace Sctp
open SsData

/-- A call of a scheduler function, or a stream queue that changes. -/
inductive WheelOp where
  | outqueue (i : StreamNo) (q : List Waiting)
  | add (i : StreamNo) (m : Waiting)
  | remove (i : StreamNo) (m : Waiting)
  | scheduled (i : StreamNo)
  | packetDone (net : Option NetId)
  | setValue (i : StreamNo) (value : ℕ)

def wheelStep (d : Discipline) (cmtOnOff fuel : ℕ) (s : SsData) : WheelOp → Option SsData
  | .outqueue i q => some (s.setOutqueue i q)
  | .add i m => some ((ssFunctions d).addToStream s i m)
  | .remove i m => some ((ssFunctions d).removeFromStream s i m)
  | .scheduled i => some ((ssFunctions d).scheduled s i)
  | .packetDone net => (ssFunctions d).packetDone cmtOnOff fuel s net
  | .setValue i value => some ((ssFunctions d).setValue s i value)

def wheelRun (d : Discipline) (cmtOnOff fuel : ℕ) : List WheelOp → Option SsData :=
  Trace.run (wheelStep d cmtOnOff fuel) SsData.init

def SelectReturns (d : Discipline) (cmtOnOff : ℕ) (s : SsData) (net : Option NetId) : Prop :=
  (∃ fuel, ((ssFunctions d).selectStream cmtOnOff fuel s net).isSome) ∧
    ∃ fuel, ((ssFunctions d).packetDone cmtOnOff fuel s net).isSome

/-- `sctp_ss_prio_select` goes on behind `a` only to a stream of the same priority. -/
def samePriority (s : SsData) (a b : StreamNo) : Bool := s.priority b == s.priority a

/-- The search ends at a stream that may send, or back at the stream last served. -/
def ComesRound (d : Discipline) (cmtOnOff : ℕ) (s : SsData) (net : Option NetId) : Prop :=
  match d with
  | .default | .roundRobin | .roundRobinPacket =>
    s.wheel = [] ∨ (∃ i ∈ s.lastOutStream, i ∈ s.wheel) ∨
      ∃ i ∈ s.wheel, blocked cmtOnOff net s i = false
  | .priority =>
    s.wheel = [] ∨ (∃ i ∈ s.lastOutStream, i ∈ Ring.lead (samePriority s) s.wheel) ∨
      ∃ i ∈ Ring.walk (samePriority s) s.wheel s.lastOutStream, blocked cmtOnOff net s i = false
  | .fairBandwidth | .fcfs => True

section Nodup

variable {d : Discipline} {s : SsData}

theorem nodup_addToWheel {insert : StreamNo → List StreamNo → List StreamNo} {i : StreamNo}
    (hperm : ∀ l, (insert i l).Perm (i :: l)) (h : s.wheel.Nodup) :
    (addToWheel insert s i).wheel.Nodup := by
  unfold addToWheel
  split
  · rename_i hi
    exact (hperm _).nodup_iff.2 (List.nodup_cons.2 ⟨hi.2, h⟩)
  · exact h

theorem nodup_addToStream (i : StreamNo) (m : Waiting) (h : s.wheel.Nodup) :
    ((ssFunctions d).addToStream s i m).wheel.Nodup := by
  cases d with
  | default => exact nodup_addToWheel (fun l => List.perm_append_singleton i l) h
  | roundRobin | roundRobinPacket | priority =>
    exact nodup_addToWheel (fun l => List.perm_orderedInsert _ i l) h
  | fairBandwidth =>
    change (ssFbAdd s i m).wheel.Nodup
    by_cases hq : s.outqueue i = []
    · rw [ssFbAdd, hq]
      exact h
    · have hadded : Added .fairBandwidth s (ssFbAdd s i m) i := ssFbAdd_added hq
      rw [hadded.perm.nodup_iff]
      split
      · exact h
      · rename_i hi
        exact List.nodup_cons.2 ⟨hi, h⟩
  | fcfs =>
    change (ssFcfsAdd s i m).wheel.Nodup
    unfold ssFcfsAdd
    split <;> exact h

theorem nodup_ssDefaultRemove (i : StreamNo) (m : Waiting) (h : s.wheel.Nodup) :
    (ssDefaultRemove s i m).wheel.Nodup := by
  unfold ssDefaultRemove
  split
  · exact h.erase i
  · exact h

theorem nodup_removeFromStream (i : StreamNo) (m : Waiting) (h : s.wheel.Nodup) :
    ((ssFunctions d).removeFromStream s i m).wheel.Nodup := by
  cases d with
  | fcfs => exact h
  | _ => exact nodup_ssDefaultRemove i m h

theorem wheelStep_nodup {cmtOnOff fuel : ℕ} {s' : SsData} (op : WheelOp) (h : s.wheel.Nodup)
    (hstep : wheelStep d cmtOnOff fuel s op = some s') : s'.wheel.Nodup := by
  cases op with
  | outqueue i q =>
    obtain rfl := Option.some.inj hstep
    exact h
  | add i m =>
    obtain rfl := Option.some.inj hstep
    exact nodup_addToStream i m h
  | remove i m =>
    obtain rfl := Option.some.inj hstep
    exact nodup_removeFromStream i m h
  | scheduled i =>
    obtain rfl := Option.some.inj hstep
    cases d <;> exact h
  | packetDone net =>
    cases d with
    | roundRobinPacket =>
      obtain ⟨strq, -, rfl⟩ := Option.map_eq_some_iff.1 hstep
      exact h
    | _ =>
      obtain rfl := Option.some.inj hstep
      exact h
  | setValue i value =>
    obtain rfl := Option.some.inj hstep
    cases d with
    | priority =>
      refine nodup_addToStream (d := .priority) i { id := 0, length := 0 } ?_
      exact nodup_ssDefaultRemove i { id := 0, length := 0 } h
    | _ => exact h

theorem wheelRun_nodup {cmtOnOff fuel : ℕ} {ops : List WheelOp}
    (h : wheelRun d cmtOnOff fuel ops = some s) : s.wheel.Nodup := by
  refine Trace.run_invariant (fun s => s.wheel.Nodup) ?_ List.nodup_nil (Trace.along_true _ _ ops) h
  intro s op s' hs _ hstep
  exact wheelStep_nodup op hs hstep

end Nodup

section FairBandwidth

variable {cmtOnOff : ℕ} {s : SsData} {net : Option NetId}

theorem fbNext_eq_lap (s : SsData) (strqt : Option StreamNo) :
    fbNext s strqt = Ring.lap s.wheel strqt := by
  cases strqt <;> rfl

/-- A look at `strqt` leaves the choice as it is or takes the stream for one that waits for more. -/
theorem fbBetter_cases (cmtOnOff : ℕ) (s : SsData) (net : Option NetId)
    (strqt strq : Option StreamNo) :
    fbBetter cmtOnOff s net strqt strq = strq ∨
      ∃ i, strqt = some i ∧ fbBetter cmtOnOff s net strqt strq = some i ∧
        ∀ b ∈ strq, s.rounds i < s.rounds b := by
  cases strqt with
  | none => exact .inl rfl
  | some i =>
    simp only [fbBetter]
    split
    · rename_i h
      exact .inr ⟨i, rfl, rfl, h.2.2⟩
    · exact .inl rfl

/-- How many streams of the wheel can still take the place of the choice. -/
def fbAhead (s : SsData) : Option StreamNo → ℕ
  | none => s.wheel.length + 1
  | some b => (s.wheel.filter fun j => s.rounds j < s.rounds b).length

theorem fbAhead_lt {i : StreamNo} {strq : Option StreamNo} (hi : i ∈ s.wheel)
    (hless : ∀ b ∈ strq, s.rounds i < s.rounds b) : fbAhead s (some i) < fbAhead s strq := by
  cases strq with
  | none =>
    have hle := List.length_filter_le (fun j => s.rounds j < s.rounds i) s.wheel
    exact Nat.lt_succ_of_le hle
  | some b =>
    have hib : s.rounds i < s.rounds b := hless b rfl
    have hsub : List.Sublist (s.wheel.filter fun j => s.rounds j < s.rounds i)
        (s.wheel.filter fun j => s.rounds j < s.rounds b) := by
      refine List.monotone_filter_right s.wheel fun j hj => ?_
      have hji : s.rounds j < s.rounds i := by simpa using hj
      simpa using hji.trans hib
    refine lt_of_le_of_ne hsub.length_le fun hlen => ?_
    have hmem : i ∈ s.wheel.filter fun j => s.rounds j < s.rounds b :=
      List.mem_filter.2 ⟨hi, by simpa using hib⟩
    rw [← hsub.eq_of_length hlen] at hmem
    simpa using (List.mem_filter.1 hmem).2

theorem fbScan_step {strqt strq best : Option StreamNo}
    (hbest : fbBetter cmtOnOff s net strqt strq = best)
    (h : Ring.lap s.wheel strqt ≠ best →
      ∃ fuel, (fbScan cmtOnOff s net fuel (Ring.lap s.wheel strqt) best).isSome) :
    ∃ fuel, (fbScan cmtOnOff s net fuel strqt strq).isSome := by
  by_cases hend : Ring.lap s.wheel strqt = best
  · refine ⟨1, ?_⟩
    simp only [fbScan, fbNext_eq_lap, hbest, hend, if_true, Option.isSome_some]
  · obtain ⟨fuel, hfuel⟩ := h hend
    refine ⟨fuel + 1, ?_⟩
    simpa only [fbScan, fbNext_eq_lap, hbest, if_neg hend] using hfuel

/-- The loop returns from every place of the lap, `n + 1` steps before it comes to the choice. The
outer induction is on the streams that can take the place of the choice, the inner one on `n`. -/
theorem fbScan_isSome (hnd : s.wheel.Nodup) (k : ℕ) {n : ℕ} {strqt strq : Option StreamNo}
    (hk : fbAhead s strq = k) (hstrqt : ∀ i ∈ strqt, i ∈ s.wheel)
    (hn : (Ring.lap s.wheel)^[n + 1] strqt = strq) :
    ∃ fuel, (fbScan cmtOnOff s net fuel strqt strq).isSome := by
  induction k using Nat.strong_induction_on generalizing n strqt strq with
  | _ k ihk =>
    have hlap (t : Option StreamNo) : ∀ i ∈ Ring.lap s.wheel t, i ∈ s.wheel :=
      fun i hi => Ring.lap_mem hi
    have hbetter {i : StreamNo} (hi : i ∈ s.wheel) (hless : ∀ b ∈ strq, s.rounds i < s.rounds b) :
        ∃ fuel, (fbScan cmtOnOff s net fuel (Ring.lap s.wheel (some i)) (some i)).isSome := by
      have hself : ∀ j ∈ some i, j ∈ s.wheel := fun j hj => Option.some.inj hj ▸ hi
      obtain ⟨m, hm⟩ := Ring.exists_iterate_lap hnd (hlap (some i)) hself
      exact ihk (fbAhead s (some i)) (hk ▸ fbAhead_lt hi hless) rfl (hlap _) hm
    induction n generalizing strqt with
    | zero =>
      obtain hbest | ⟨i, rfl, hbest, hless⟩ :=
        fbBetter_cases cmtOnOff s net strqt strq
      · exact fbScan_step hbest fun hend => absurd hn hend
      · exact fbScan_step hbest fun _ => hbetter (hstrqt i rfl) hless
    | succ n ihn =>
      obtain hbest | ⟨i, rfl, hbest, hless⟩ :=
        fbBetter_cases cmtOnOff s net strqt strq
      · rw [Function.iterate_succ_apply] at hn
        exact fbScan_step hbest fun _ => ihn (hlap strqt) hn
      · exact fbScan_step hbest fun _ => hbetter (hstrqt i rfl) hless

theorem fbFirst_mem : ∀ i ∈ fbFirst s, i ∈ s.wheel := by
  intro i hi
  unfold fbFirst at hi
  split at hi
  · exact List.mem_of_head? hi
  · split at hi
    · exact List.mem_of_head? hi
    · exact Ring.mem_of_mem_behind (List.mem_of_head? hi)

theorem ssFbSelect_isSome (hnd : s.wheel.Nodup) :
    ∃ fuel, (ssFbSelect cmtOnOff fuel s net).isSome := by
  obtain ⟨n, hn⟩ := Ring.exists_iterate_lap hnd fbFirst_mem (u := none) nofun
  exact fbScan_isSome hnd _ rfl fbFirst_mem hn

end FairBandwidth

section Returns

variable {d : Discipline} {cmtOnOff : ℕ} {s : SsData} {net : Option NetId}

theorem nextStream_isSome_iff (hnd : s.wheel.Nodup) :
    (∃ fuel, (nextStream cmtOnOff fuel s net).isSome) ↔
      s.wheel = [] ∨ (∃ i ∈ s.lastOutStream, i ∈ s.wheel) ∨
        ∃ i ∈ s.wheel, blocked cmtOnOff net s i = false := by
  have hscan := Ring.scan_around_isSome_iff (fun _ _ => true)
    (fun i => !blocked cmtOnOff net s i) s.lastOutStream hnd
  have hwalk (i : StreamNo) :
      i ∈ Ring.walk (fun _ _ => true) s.wheel s.lastOutStream ↔ i ∈ s.wheel := by
    refine ⟨fun hi => ?_, fun hi => ?_⟩
    · obtain ⟨p, q, hpq, -⟩ := Ring.exists_of_mem_walk hnd hi
      rw [hpq]
      exact List.mem_append_right p List.mem_cons_self
    · rw [← Ring.lead_true s.wheel] at hi
      exact Ring.lead_subset_walk _ hi
  simpa only [nextStream, Ring.lead_true, hwalk, Bool.not_eq_true'] using hscan

theorem ssPrioSelect_isSome_iff (hnd : s.wheel.Nodup) :
    (∃ fuel, (ssPrioSelect cmtOnOff fuel s net).isSome) ↔
      s.wheel = [] ∨ (∃ i ∈ s.lastOutStream, i ∈ Ring.lead (samePriority s) s.wheel) ∨
        ∃ i ∈ Ring.walk (samePriority s) s.wheel s.lastOutStream,
          blocked cmtOnOff net s i = false := by
  have hscan := Ring.scan_around_isSome_iff (samePriority s)
    (fun i => !blocked cmtOnOff net s i) s.lastOutStream hnd
  simp only [Bool.not_eq_true'] at hscan
  exact hscan

theorem packetDone_isSome (d : Discipline) (hd : d ≠ .roundRobinPacket) :
    ∃ fuel, ((ssFunctions d).packetDone cmtOnOff fuel s net).isSome := by
  cases d with
  | roundRobinPacket => exact absurd rfl hd
  | _ => exact ⟨0, rfl⟩

/-- Behind every history of wheel operations, the choice of a stream and the end of a packet return
exactly when the search comes round. -/
theorem wheelRun_selectReturns_iff {fuel : ℕ} {ops : List WheelOp}
    (hrun : wheelRun d cmtOnOff fuel ops = some s) (net : Option NetId) :
    SelectReturns d cmtOnOff s net ↔ ComesRound d cmtOnOff s net := by
  have hnd : s.wheel.Nodup := wheelRun_nodup hrun
  cases d with
  | default =>
    rw [SelectReturns, and_iff_left (packetDone_isSome .default nofun)]
    exact nextStream_isSome_iff hnd
  | roundRobin =>
    rw [SelectReturns, and_iff_left (packetDone_isSome .roundRobin nofun)]
    exact nextStream_isSome_iff hnd
  | roundRobinPacket =>
    rw [SelectReturns, and_iff_right ⟨0, rfl⟩]
    change (∃ fuel, ((nextStream cmtOnOff fuel s net).map _).isSome) ↔ _
    simp only [Option.isSome_map]
    exact nextStream_isSome_iff hnd
  | priority =>
    rw [SelectReturns, and_iff_left (packetDone_isSome .priority nofun)]
    exact ssPrioSelect_isSome_iff hnd
  | fairBandwidth =>
    rw [SelectReturns, and_iff_left (packetDone_isSome .fairBandwidth nofun)]
    exact iff_of_true (ssFbSelect_isSome hnd) trivial
  | fcfs => exact iff_of_true ⟨⟨0, rfl⟩, ⟨0, rfl⟩⟩ trivial

end Returns

/-- The first message of a new association, for destination `n`. -/
def firstMessage (n : NetId) : List WheelOp :=
  [.outqueue 0 [{ id := 1, net := some n, length := 100 }], .add 0 { id := 1, length := 100 }]

theorem firstMessage_selectReturns :
    ∃ s, wheelRun .default 0 0 (firstMessage 0) = some s ∧
      SelectReturns .default 0 s (some 0) := by
  have hrun : wheelRun .default 0 0 (firstMessage 0) = some _ := rfl
  refine ⟨_, hrun, (wheelRun_selectReturns_iff hrun (some 0)).2 ?_⟩
  refine .inr (.inr ⟨0, ?_, ?_⟩) <;> decide

/-- Destination 0 is asked for: `last_out_stream` is a null pointer, which the search never comes
to. -/
theorem firstMessage_not_selectReturns :
    ∃ s, wheelRun .default 0 0 (firstMessage 1) = some s ∧
      ¬ SelectReturns .default 0 s (some 0) := by
  refine ⟨_, rfl, fun h => ?_⟩
  obtain hempty | ⟨i, hi, -⟩ | ⟨i, hi, hok⟩ := (nextStream_isSome_iff (by decide)).1 h.1
  · cases hempty
  · cases hi
  · obtain rfl : i = 0 := List.mem_singleton.1 hi
    cases hok

end Sctp
