import PcapSipDump.Capture.Branch

/-!
# The limit of `-T`

Only a pass ends a call that has been recorded for longer than the limit, and the loop makes a pass
when the last one is more than 15 seconds old.  The invariant `Timely` says this of the time of
the last pass: it is at most 15 seconds ago, and no call was over the limit then.  So no packet
is dumped through an element later than 15 seconds after the limit (`dumped_within_limit`).
-/

namespace PcapSipDump

open Lib Lib.CString

variable {o : Options} {host : Host} {p : Packet} {s : State}

/-- The capture times of the packets among the inputs. -/
def packetTimes (inputs : List Input) : List ℤ :=
  inputs.filterMap fun
    | .packet p => some p.ts
    | .cleanup _ => none

/-- The time of the last periodic pass. -/
def State.lastPass (s : State) : ℤ := s.lastCleanup.toNat

/-- At the time `now` the last periodic pass is at most 15 seconds old, and no call in the table
was over the limit then. -/
structure Timely (o : Options) (now : ℤ) (s : State) : Prop where
  owns : Owns s.world
  limit_eq : s.world.ct.optAbsoluteTimeout = o.optAbsoluteTimeout
  lastPass_le : s.lastPass ≤ now
  le_lastPass : now - s.lastPass ≤ 15
  within : ∀ i, (s.world.slot i).isUsed →
    s.lastPass - (s.world.slot i).firstPacketTime ≤ o.optAbsoluteTimeout

/-! ### The comparison of times -/

lemma toNat_ofInt {t : ℤ} (h : 0 ≤ t) (h' : t < 2 ^ 63) : ((UInt64.ofInt t).toNat : ℤ) = t := by
  have hmod : (t % 2 ^ 64).toNat < 2 ^ 64 := by omega
  rw [UInt64.ofInt, UInt64.toNat_ofNat_of_lt' hmod]
  omega

/-- The unsigned difference is the difference when the clock has not gone back. -/
lemma cleanupDue_iff {t : ℤ} (h : 0 ≤ t) (h' : t < 2 ^ 63) (hle : s.lastPass ≤ t) :
    cleanupDue t s.lastCleanup ↔ t - s.lastPass > 15 := by
  have ht := toNat_ofInt h h'
  have hnat : s.lastCleanup.toNat ≤ (UInt64.ofInt t).toNat := by
    rw [State.lastPass] at hle
    omega
  have hsub : (UInt64.ofInt t - s.lastCleanup).toNat =
      (UInt64.ofInt t).toNat - s.lastCleanup.toNat :=
    UInt64.toNat_sub_of_le _ _ (UInt64.le_iff_toNat_le.mpr hnat)
  rw [cleanupDue, decide_eq_true_eq, gt_iff_lt, UInt64.lt_iff_toNat_lt, hsub, State.lastPass]
  show 15 < _ ↔ _
  omega

/-! ### What packets and passes do to the times of calls -/

/-- A packet leaves the time of the first packet of a call alone, or the call is new. -/
lemma firstPacketTime_dispatch (o : Options) (host : Host) (p : Packet) {s : State}
    (hw : s.world.ct.TableInv) (i : ℕ) :
    (((dispatch o host p s).world.slot i).isUsed = (s.world.slot i).isUsed ∧
        ((dispatch o host p s).world.slot i).firstPacketTime =
          (s.world.slot i).firstPacketTime) ∨
      ((dispatch o host p s).world.slot i).firstPacketTime = p.ts := by
  rcases slot_dispatch o host p hw i with
    ⟨es, hes, he⟩ | ⟨ip, j, es, -, hes, he⟩ | ⟨_, _, _, _, _, es, -, -, -, -, -, -, hes, he⟩
  · have hsame := SameCall.foldl_apply (ElementWrite.IsSip.ne_file hes) (s.world.slot i)
    rw [he]
    exact Or.inl ⟨hsame.isUsed, hsame.firstPacketTime⟩
  · have hsame := SameCall.foldl_apply (ElementWrite.ne_file_of_rtp hes)
      ((s.world.slot i).setSsrc j (packetSsrc o p.mem ip))
    rw [he]
    exact Or.inl ⟨hsame.isUsed, hsame.firstPacketTime⟩
  · right
    rw [he, (SameCall.foldl_apply (ElementWrite.IsSip.ne_file hes) _).firstPacketTime]
    rfl

lemma limit_loop (o : Options) (host : Host) (s : State) (a : Input)
    (hw : (afterPass s a).world.ct.TableInv) :
    (afterPass s a).world.ct.optAbsoluteTimeout = s.world.ct.optAbsoluteTimeout ∧
      ((loop o host).next s a).world.ct.optAbsoluteTimeout =
        s.world.ct.optAbsoluteTimeout := by
  have hpass : (afterPass s a).world.ct.optAbsoluteTimeout = s.world.ct.optAbsoluteTimeout :=
    afterPass_invariant
      (P := fun v : World => v.ct.optAbsoluteTimeout = s.world.ct.optAbsoluteTimeout) rfl
      fun _ _ => rfl
  refine ⟨hpass, (next_invariant (o := o) (P := fun v : World => v.ct.TableInv ∧
    v.ct.optAbsoluteTimeout = s.world.ct.optAbsoluteTimeout) (fun _ hv => hv.1) ?_
    ⟨hw, hpass⟩).2⟩
  rintro v op q hop - ⟨hv, hlimit⟩
  exact ⟨tableInv_next hop hv, (settings_next op).1.trans hlimit⟩

/-! ### The invariant -/

/-- After the pass of a packet the last pass is recent, and no call was over the limit at that
time. -/
lemma Timely.afterPass {now : ℤ} (h : Timely o now s) (hle : now ≤ p.ts) (h0 : 0 ≤ p.ts)
    (h63 : p.ts < 2 ^ 63) : Timely o p.ts (PcapSipDump.afterPass s (.packet p)) := by
  have howns := h.owns.afterPass (.packet p)
  have hlimit := (limit_loop o Host.numbering s (.packet p) howns.tableInv).1
  have hdue := cleanupDue_iff (s := s) h0 h63 (h.lastPass_le.trans hle)
  by_cases hd : cleanupDue p.ts s.lastCleanup
  · -- a pass at the time of the packet
    have hlast : (PcapSipDump.afterPass s (.packet p)).lastPass = p.ts := by
      simp only [PcapSipDump.afterPass, State.periodicCleanup, if_pos hd, State.lastPass]
      exact toNat_ofInt h0 h63
    refine ⟨howns, hlimit.trans h.limit_eq, hlast.le, by omega, fun i hu => ?_⟩
    obtain ⟨hno, hsame⟩ := slot_of_used_afterPass hu
    rw [hsame] at hu ⊢
    rw [hlast]
    by_contra hover
    refine hno ⟨p.ts, if_pos hd, ?_⟩
    simp only [CalltableElement.expired, hu, h.limit_eq, Bool.true_and, Bool.or_eq_true,
      decide_eq_true_eq]
    omega
  · have hstate : PcapSipDump.afterPass s (.packet p) = s := by
      simp only [PcapSipDump.afterPass, State.periodicCleanup, if_neg hd]
    rw [hdue] at hd
    have hold := h.lastPass_le
    rw [hstate]
    exact ⟨h.owns, h.limit_eq, by omega, by omega, h.within⟩

/-- After its pass a packet keeps the invariant: the calls that it adds are new. -/
lemma Timely.dispatch (h : Timely o p.ts s) (hL : 0 ≤ o.optAbsoluteTimeout) (host : Host) :
    Timely o p.ts (PcapSipDump.dispatch o host p s) := by
  have hw := h.owns.tableInv
  have hlast : (PcapSipDump.dispatch o host p s).lastPass = s.lastPass := by
    rw [State.lastPass, (counters_dispatch o host p s).1, State.lastPass]
  have hworld : Owns (PcapSipDump.dispatch o host p s).world ∧
      (PcapSipDump.dispatch o host p s).world.ct.optAbsoluteTimeout = o.optAbsoluteTimeout := by
    refine dispatch_invariant (P := fun v : World => Owns v ∧
      v.ct.optAbsoluteTimeout = o.optAbsoluteTimeout) (fun _ hv => hv.1.tableInv) ?_
      ⟨h.owns, h.limit_eq⟩
    rintro v op hop - ⟨hv, hlimit⟩
    exact ⟨hv.next hop, (settings_next op).1.trans hlimit⟩
  have hold := h.lastPass_le
  have hrecent := h.le_lastPass
  refine ⟨hworld.1, hworld.2, by omega, by omega, fun i hu => ?_⟩
  rw [hlast]
  rcases firstPacketTime_dispatch o host p hw i with ⟨hused, htime⟩ | htime
  · rw [hused] at hu
    rw [htime]
    exact h.within i hu
  · omega

/-- A pass that a signal handler makes keeps the invariant. -/
lemma Timely.cleanup {now : ℤ} (h : Timely o now s) (currtime : ℤ) (host : Host) :
    Timely o now ((loop o host).next s (.cleanup currtime)) := by
  have howns := h.owns.afterPass (.cleanup currtime)
  refine ⟨howns, h.limit_eq, h.lastPass_le, h.le_lastPass, fun i hu => ?_⟩
  obtain ⟨-, hsame⟩ := slot_of_used_afterPass (a := .cleanup currtime) hu
  have hslot : ((loop o host).next s (.cleanup currtime)).world.slot i = s.world.slot i := hsame
  rw [hslot] at hu ⊢
  exact h.within i hu

/-- The invariant at the time of the last packet, after every run with a clock that does not go
back. -/
lemma Timely.run (host : Host) (hL : 0 ≤ o.optAbsoluteTimeout) {inputs : List Input} {now : ℤ}
    (h : Timely o now s) (h0 : 0 ≤ now) (hle : ∀ t ∈ packetTimes inputs, now ≤ t)
    (hmono : (packetTimes inputs).Pairwise (· ≤ ·))
    (h63 : ∀ t ∈ packetTimes inputs, t < 2 ^ 63) {later : ℤ} (hnow : now ≤ later)
    (hlater : ∀ t ∈ packetTimes inputs, t ≤ later) :
    ∃ now', 0 ≤ now' ∧ now' ≤ later ∧ Timely o now' ((loop o host).run s inputs) := by
  induction inputs generalizing s now with
  | nil => exact ⟨now, h0, hnow, h⟩
  | cons a inputs ih =>
    cases a with
    | cleanup currtime =>
      exact ih (h.cleanup currtime host) h0 hle hmono h63 hnow hlater
    | packet p =>
      have htimes : packetTimes (.packet p :: inputs) = p.ts :: packetTimes inputs := rfl
      rw [htimes] at hle hmono h63 hlater
      obtain ⟨hfirst, hrest⟩ := List.pairwise_cons.mp hmono
      have hp := hle p.ts (by simp)
      have hp0 : 0 ≤ p.ts := h0.trans hp
      have hnext : Timely o p.ts ((loop o host).next s (.packet p)) :=
        (h.afterPass hp hp0 (h63 p.ts (by simp))).dispatch hL host
      exact ih hnext hp0 hfirst hrest (fun t ht => h63 t (by simp [ht])) (hlater p.ts (by simp))
        fun t ht => hlater t (by simp [ht])

lemma timely_start (o : Options) : Timely o 0 o.start := by
  have hlast : o.start.lastPass = 0 := rfl
  refine ⟨owns_start o, rfl, by omega, by omega, fun i hu => ?_⟩
  have hzero : o.start.world.slot i = CalltableElement.zero := Calltable.slot_create _ _ i
  rw [hzero] at hu
  exact absurd hu (by decide)

/-- **Recording stops within the limit of `-T`.**  In every run of the capture loop over packets
with non-decreasing, non-negative time stamps, a packet that is dumped through an element, as
media or as signalling, is not later than 15 seconds after the limit for the call in it. -/
theorem dumped_within_limit (o : Options) (host : Host) (inputs : List Input) (p : Packet)
    (hL : 0 ≤ o.optAbsoluteTimeout)
    (hmono : (packetTimes (inputs ++ [.packet p])).Pairwise (· ≤ ·))
    (hrange : ∀ t ∈ packetTimes (inputs ++ [.packet p]), 0 ≤ t ∧ t < 2 ^ 63) :
    let s := (loop o host).run o.start inputs
    let s' := (loop o host).next s (.packet p)
    ∀ new, s'.world.written = s.world.written ++ new →
      ∀ via f r i, (via, f, r) ∈ new → via = .rtp i ∨ via = .sip i →
        r.ts = p.ts ∧ (s'.world.slot i).isUsed ∧ (s'.world.slot i).fPcap = some f ∧
          r.ts - (s'.world.slot i).firstPacketTime ≤ o.optAbsoluteTimeout + 15 := by
  intro s s' new hnew via f r i hmem hvia
  have htimes : packetTimes (inputs ++ [.packet p]) = packetTimes inputs ++ [p.ts] := by
    simp [packetTimes, List.filterMap_append]
  rw [htimes] at hmono hrange
  obtain ⟨hpre, -, hlater⟩ := List.pairwise_append.mp hmono
  have hp := hrange p.ts (by simp)
  obtain ⟨now, -, hnow, hs⟩ := (timely_start o).run host hL
    (le_refl 0) (fun t ht => (hrange t (by simp [ht])).1) hpre
    (fun t ht => (hrange t (by simp [ht])).2) hp.1 (fun t ht => hlater t ht p.ts (by simp))
  have hafter : Timely o p.ts (PcapSipDump.afterPass s (.packet p)) :=
    hs.afterPass hnow hp.1 hp.2
  have hs' : Timely o p.ts s' := hafter.dispatch hL host
  have hw := hafter.owns.tableInv
  rw [List.append_cancel_left (hnew.symm.trans (written_loop o host hw)), inputDumps] at hmem
  obtain ⟨hts, hfile⟩ := fPcap_of_dumps o host p hw hmem hvia
  have hu : (s'.world.slot i).isUsed := hs'.owns.tableInv.used_of_fPcap hfile
  have hwithin := hs'.within i hu
  have hrecent := hs'.le_lastPass
  exact ⟨hts, hu, hfile, by omega⟩

/-- With a limit of 10 seconds the INVITE of 1000 is followed by one of 1014 that is still
recorded. -/
theorem dumped_within_limit_late :
    let o : Options := { Options.raw with optAbsoluteTimeout := 10 }
    let p : Packet := .captured 1014 (invite "x")
    let s := (loop o Host.numbering).run o.start [.packet (.captured 1000 (invite "x"))]
    let s' := (loop o Host.numbering).next s (.packet p)
    p.ts - (s'.world.slot 0).firstPacketTime ≤ 10 + 15 := by
  intro o p s s'
  have hwritten : s'.world.written = s.world.written ++ [(.sip 0, 1, p.terminate.record)] := by
    decide +kernel
  exact (dumped_within_limit o Host.numbering [.packet (.captured 1000 (invite "x"))] p
    (by decide) (by decide) (by decide) _ hwritten (.sip 0) 1 _ 0 (List.mem_singleton.mpr rfl)
    (Or.inr rfl)).2.2.2

end PcapSipDump
