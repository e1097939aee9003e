import PcapSipDump.Capture.TimeLimit

/-!
# The times of the passes

The loop makes a pass when `ts.tv_sec - last_cleanup > 15`, and the difference is one of unsigned
numbers.  It is also larger than 15 when the packet is older than the last pass, so merged or
reordered captures make passes at any distance: the passes are more than 15 seconds apart exactly
when no packet is older than the last pass before it (`passes_apart_iff`).
-/

namespace PcapSipDump

open Lib Lib.CString

variable {o : Options} {host : Host} {p : Packet} {s : State}

/-- The time of the pass that the loop itself makes for an input.  A signal handler is not a part
of the loop, and the pass at the end of the input is made behind it. -/
def loopPass (s : State) : Input → Option ℤ
  | .packet p => passTime s (.packet p)
  | .cleanup _ => none

/-- The times of the passes that the loop makes in a run. -/
def passTimes (o : Options) (host : Host) (inputs : List Input) : List ℤ :=
  (loop o host).outputs loopPass o.start inputs

/-- A packet is not older than the last pass. -/
def NotBeforePass (s : State) : Input → Prop
  | .packet p => s.lastPass ≤ p.ts
  | .cleanup _ => True

instance (s : State) : ∀ a, Decidable (NotBeforePass s a)
  | .packet p => inferInstanceAs (Decidable (s.lastPass ≤ p.ts))
  | .cleanup _ => isTrue trivial

/-- The time stamp of a packet is a non-negative `time_t`. -/
def InTimeRange : Input → Prop
  | .packet p => 0 ≤ p.ts ∧ p.ts < 2 ^ 63
  | .cleanup _ => True

/-! ### One input -/

/-- The unsigned difference is large when time has gone back. -/
lemma cleanupDue_iff_or {t : ℤ} (h : 0 ≤ t) (h' : t < 2 ^ 63) (hs : s.lastPass < 2 ^ 63) :
    cleanupDue t s.lastCleanup ↔ t < s.lastPass ∨ t - s.lastPass > 15 := by
  rcases le_or_gt s.lastPass t with hle | hlt
  · rw [cleanupDue_iff h h' hle]
    omega
  · refine iff_of_true ?_ (Or.inl hlt)
    have ht := toNat_ofInt h h'
    rw [State.lastPass] at hlt hs
    rw [cleanupDue, decide_eq_true_eq, gt_iff_lt, UInt64.lt_iff_toNat_lt, UInt64.toNat_sub]
    show 15 < _
    omega

lemma mem_loopPass {t : ℤ} :
    t ∈ loopPass s (.packet p) ↔ t = p.ts ∧ cleanupDue p.ts s.lastCleanup := by
  rw [loopPass, passTime, Option.mem_ite_none_right, Option.mem_some_iff, and_comm, eq_comm]

/-- The loop calls `do_cleanup` at the time of its pass and stores this time. -/
lemma periodicCleanup_eq (p : Packet) (s : State) :
    s.periodicCleanup p.ts = (loopPass s (.packet p)).elim s fun t =>
      { s with world := s.world.cleanup t, lastCleanup := UInt64.ofInt t } := by
  rw [State.periodicCleanup, loopPass, passTime]
  split <;> rfl

/-- The state keeps the time of the last pass. -/
lemma lastPass_next (o : Options) (host : Host) (s : State) {a : Input} (ha : InTimeRange a) :
    ((loop o host).next s a).lastPass = (loopPass s a).getD s.lastPass := by
  cases a with
  | cleanup currtime => rfl
  | packet p =>
    show (capture o host p s).lastPass = _
    rw [capture, State.lastPass, (counters_dispatch o host p _).1, periodicCleanup_eq]
    rcases ht : loopPass s (.packet p) with _ | t
    · rfl
    · obtain ⟨rfl, -⟩ := mem_loopPass.mp ht
      exact toNat_ofInt ha.1 ha.2

lemma lastPass_lt_next {a : Input} (ha : InTimeRange a) (hs : s.lastPass < 2 ^ 63) :
    ((loop o host).next s a).lastPass < 2 ^ 63 := by
  rw [lastPass_next o host s ha]
  cases a with
  | cleanup currtime => exact hs
  | packet p =>
    rcases ht : loopPass s (.packet p) with _ | t
    · exact hs
    · obtain ⟨rfl, -⟩ := mem_loopPass.mp ht
      exact ha.2

/-- A pass comes more than 15 seconds after the last one, unless the packet is older than that. -/
lemma loopPass_apart_iff {a : Input} (ha : InTimeRange a) (hs : s.lastPass < 2 ^ 63) :
    (∀ t ∈ loopPass s a, t - s.lastPass > 15) ↔ NotBeforePass s a := by
  cases a with
  | cleanup currtime => exact iff_of_true (fun _ h => by cases h) trivial
  | packet p =>
    have hdue := cleanupDue_iff_or ha.1 ha.2 hs
    constructor
    · intro h
      by_contra hlt
      have hold : p.ts < s.lastPass := not_le.mp hlt
      have hapart := h p.ts (mem_loopPass.mpr ⟨rfl, hdue.mpr (Or.inl hold)⟩)
      omega
    · intro hle t ht
      obtain ⟨rfl, hd⟩ := mem_loopPass.mp ht
      exact (hdue.mp hd).resolve_left (not_lt.mpr hle)

/-- Before the first pass no packet is too old. -/
lemma InTimeRange.notBeforePass {a : Input} (ha : InTimeRange a) (hs : s.lastPass = 0) :
    NotBeforePass s a := by
  cases a with
  | cleanup currtime => trivial
  | packet p => exact hs.le.trans ha.1

/-! ### Whole runs -/

lemma inTimeRange_of_packetTimes {inputs : List Input}
    (hrange : ∀ t ∈ packetTimes inputs, 0 ≤ t ∧ t < 2 ^ 63) : ∀ a ∈ inputs, InTimeRange a := by
  intro a ha
  cases a with
  | cleanup currtime => trivial
  | packet p => exact hrange p.ts (List.mem_filterMap.mpr ⟨_, ha, rfl⟩)

/-- **When the passes are more than 15 seconds apart.**  In a run of the capture loop over packets
with non-negative time stamps, in any order, each pass after the first one comes more than 15
seconds after the pass before it exactly when no packet is older than the last pass before it. -/
theorem passes_apart_iff (o : Options) (host : Host) (inputs : List Input)
    (hrange : ∀ t ∈ packetTimes inputs, 0 ≤ t ∧ t < 2 ^ 63) :
    (passTimes o host inputs).IsChain (fun t t' => t' - t > 15) ↔
      (loop o host).Along NotBeforePass o.start inputs := by
  have hstart : o.start.lastPass = 0 := rfl
  have hall : (loop o host).Along (fun s a => s.lastPass < 2 ^ 63 ∧ InTimeRange a) o.start inputs :=
    Machine.along_of_invariant (P := fun s : State => s.lastPass < 2 ^ 63)
      (fun s a ha hs => lastPass_lt_next ha hs) (inTimeRange_of_packetTimes hrange)
      (hstart.trans_lt (by decide))
  have hlast : (loop o host).Along (fun s a =>
      ((loop o host).next s a).lastPass = (loopPass s a).getD s.lastPass) o.start inputs :=
    hall.imp fun s a h => lastPass_next o host s h.2
  -- no packet is older than second 0, so the first pass comes after second 15
  have hfirst : ∀ t ∈ (passTimes o host inputs).head?, t - o.start.lastPass > 15 := by
    refine Machine.head?_outputs (R := fun t t' => t' - t > 15) (hall.imp fun s a h => ?_) rfl
    refine ⟨lastPass_next o host s h.2, fun hs t ht => ?_⟩
    rw [← hs]
    exact (loopPass_apart_iff h.2 h.1).mpr (h.2.notBeforePass (hs.trans hstart)) t ht
  have hchain := Machine.isChain_outputs_iff_along (R := fun t t' => t' - t > 15) hlast
  rw [List.isChain_cons, ← passTimes, and_iff_right hfirst] at hchain
  rw [hchain]
  constructor
  · intro h
    exact (hall.and h).imp fun s a h => (loopPass_apart_iff h.1.2 h.1.1).mp h.2
  · intro h
    exact (hall.and h).imp fun s a h => (loopPass_apart_iff h.1.2 h.1.1).mpr h.2

/-- After the passes of 100 and 116 no packet is older than 116. -/
theorem passes_apart_reordered :
    (passTimes Options.raw Host.numbering
      [.packet (.captured 100 (invite "x")), .packet (.captured 116 (invite "y")),
        .packet (.captured 130 []), .packet (.captured 120 [])]).IsChain
      (fun t t' => t' - t > 15) :=
  (passes_apart_iff _ _ _ (by decide)).mpr (by decide +kernel)

/-- A packet of 999 behind one of 1000 makes a pass. -/
theorem passes_apart_false :
    passTimes Options.raw Host.numbering
      [.packet (.captured 1000 (invite "x")), .packet (.captured 999 (invite "x"))] = [1000, 999] ∧
    ¬[(1000 : ℤ), 999].IsChain (fun t t' => t' - t > 15) := by
  decide +kernel

end PcapSipDump
