import PcapSipDump.Capture.ClosedFiles
import PcapSipDump.Capture.Dumps

/-!
# Expiry and idleness

A pass frees a call for idleness when `last_packet_time` is more than 300 seconds ago.  The RTP
branches keep this field, the SIP branch does not: it stays at the time of the first message
until media is dumped.  So a pass may free a call whose last SIP message is recent, and in a run
with non-decreasing time stamps this is the only way in which it frees a call that is not idle
(`frees_idle_iff`).

The invariant `Tracked` says that no time in the table lies in the future, and that
`last_packet_time` is not before any RTP packet that was dumped into the file of the call.
-/

namespace PcapSipDump

open Lib Lib.CString Lib.SlotTable

variable {o : Options} {host : Host} {libbsd : Bool} {w : World} {p : Packet}

/-- Packet `r` of the call with the file `f`, media or signalling, has been dumped. -/
def Dumped (w : World) (f : Handle) (r : Record) : Prop :=
  ∃ j, .dump (.rtp j) f r ∈ w.log ∨ .dump (.sip j) f r ∈ w.log

/-- Every call that the pass of an input frees has exceeded the limit of `-T`, or no packet of it
has been dumped in the 300 seconds before. -/
def FreesIdle (s : State) (a : Input) : Prop :=
  ∀ currtime, passTime s a = some currtime → ∀ i, s.world.ct.due currtime (s.world.slot i) →
    currtime - (s.world.slot i).firstPacketTime > s.world.ct.optAbsoluteTimeout ∨
      ∀ f r, (s.world.slot i).fPcap = some f → Dumped s.world f r → ¬currtime - r.ts ≤ 300

/-- The pass of an input does not meet a call within the limit of `-T` that had no media for more
than 300 seconds but a SIP message in these 300 seconds. -/
def SignallingCondition (s : State) (a : Input) : Prop :=
  ∀ currtime, passTime s a = some currtime → ∀ i j f r, (s.world.slot i).isUsed →
    (s.world.slot i).fPcap = some f →
    currtime - (s.world.slot i).lastPacketTime > 300 →
    currtime - (s.world.slot i).firstPacketTime ≤ s.world.ct.optAbsoluteTimeout →
    .dump (.sip j) f r ∈ s.world.log → currtime - r.ts > 300

/-! ### What an operation does to the time of the last packet -/

/-- The writes other than that of an RTP packet keep the time of the last packet. -/
lemma lastPacketTime_apply {e : ElementWrite} (h : ∀ ts, e ≠ .rtp ts) (c : CalltableElement) :
    (e.apply c).lastPacketTime = c.lastPacketTime := by
  cases e with
  | rtp ts => exact absurd rfl (h ts)
  | addIpPort addr port =>
    exact c.addIpPort_frame (fun c => c.lastPacketTime) (fun _ _ _ _ => rfl) addr port
  | _ => rfl

lemma lastPacketTime_write {i : ℕ} (hi : (w.slot i).isUsed) {e : ElementWrite}
    (he : ∀ ts, e ≠ .rtp ts) (j : ℕ) :
    ((w.write i e).slot j).lastPacketTime = (w.slot j).lastPacketTime := by
  rw [World.slot_write hi]
  split
  · exact lastPacketTime_apply he _
  · rfl

/-- An operation of a packet keeps the time of the last packet of an element, or sets it to the
time of the packet. -/
lemma lastPacketTime_next {op : WorldOp} (hop : (world host libbsd).allowed w op)
    (hp : op.OfPacket p) (h : w.ct.TableInv) (i : ℕ) :
    (((world host libbsd).next w op).slot i).lastPacketTime = (w.slot i).lastPacketTime ∨
      (((world host libbsd).next w op).slot i).lastPacketTime = p.ts := by
  cases op with
  | cleanup currtime => exact hp.elim
  | findIpPortSsrc addr port ssrc =>
    left
    rcases w.ct.findIpPortSsrc_cases addr port ssrc with ⟨-, he⟩ | ⟨k, j, hf, he⟩
    · simp only [world, World.findIpPortSsrc, World.slot, he]
    · have hu : (w.ct.slot k).isUsed := h.unusedZero.used_of_findFlow hf
      simp only [world, World.findIpPortSsrc, World.slot, he, Calltable.slot_modify_of_used hu]
      split <;> rfl
  | rtpDump k packet packetbuffered =>
    obtain rfl : packet = p.record := hp
    simp only [world, World.slot, World.ct_rtpDump]
    split
    · exact Or.inl rfl
    · rw [Calltable.slot_modify_of_used hop]
      split
      · exact Or.inr rfl
      · exact Or.inl rfl
  | add callId caller callee time =>
    obtain rfl : time = p.ts := hp
    have hslot := w.ct.slot_add callId caller callee p.ts i
    by_cases hi : i = w.ct.addIdx
    · exact Or.inr (congrArg CalltableElement.lastPacketTime (hslot.trans (if_pos hi)))
    · exact Or.inl (congrArg CalltableElement.lastPacketTime (hslot.trans (if_neg hi)))
  | openFile k callId fn dir => exact Or.inl (lastPacketTime_write hop.1 (by simp) i)
  | noFile k => exact Or.inl (lastPacketTime_write hop.1 (by simp) i)
  | bye k => exact Or.inl (lastPacketTime_write hop (by simp) i)
  | sdp k e =>
    refine Or.inl (lastPacketTime_write hop.1 ?_ i)
    rintro ts rfl
    exact hop.2
  | sipDump k packet bye packetbuffered =>
    left
    simp only [world, World.slot, World.ct_sipDump]
  | addIpfrag aai k => exact Or.inl rfl
  | fragment aai packet last packetbuffered =>
    left
    simp only [world, World.slot, Calltable.slot, World.table_fragment]

/-! ### The invariant -/

/-- Only dumpers that were opened are written to and kept for fragments. -/
structure KnownFiles (w : World) : Prop where
  dumped : ∀ via f r, .dump via f r ∈ w.log → f ∈ pcapFiles.opened w.log
  frags : ∀ aai f, w.ct.ipfrags aai = some (some f) → f ∈ pcapFiles.opened w.log

/-- No time in the table is after `now`, and the time of the last packet of a call with a file is
not before any media that was dumped into the file. -/
structure Tracked (now : ℤ) (w : World) : Prop where
  owns : Owns w
  known : KnownFiles w
  lastPacketTime_le : ∀ i, (w.slot i).isUsed → (w.slot i).lastPacketTime ≤ now
  rtp_le : ∀ i f j r, (w.slot i).fPcap = some f → .dump (.rtp j) f r ∈ w.log →
    r.ts ≤ (w.slot i).lastPacketTime

lemma KnownFiles.next (h : KnownFiles w) (howns : Owns w) (host : Host) (libbsd : Bool)
    (op : WorldOp) :
    KnownFiles ((world host libbsd).next w op) := by
  obtain ⟨events, hlog⟩ := log_grows (w := w) host libbsd op
  have hgrow : ∀ f, f ∈ pcapFiles.opened w.log →
      f ∈ pcapFiles.opened ((world host libbsd).next w op).log := by
    intro f hf
    rw [hlog, Usage.opened_append]
    exact List.mem_append_left _ hf
  refine ⟨fun via f r hd => hgrow f ?_, fun aai f hf => hgrow f ?_⟩
  · rcases dump_next host libbsd hd with
      hd | ⟨i, _, -, -, hi⟩ | ⟨i, _, _, -, -, hi⟩ | ⟨aai, _, _, -, -, haai⟩
    · exact h.dumped via f r hd
    · exact (howns.live hi).1
    · exact (howns.live hi).1
    · exact h.frags aai f haai
  · by_cases hpass : ∃ currtime, op = .cleanup currtime
    · obtain ⟨currtime, rfl⟩ := hpass
      exact h.frags aai f hf
    · rcases ipfrags_next (fun T hT => hpass ⟨T, hT⟩) hf with haai | ⟨i, hi⟩
      · exact h.frags aai f haai
      · exact (howns.live hi).1

/-- An RTP packet sets the time of its call. -/
lemma lastPacketTime_rtpDump {i : ℕ} (hu : (w.slot i).isUsed) {f : Handle}
    (hf : (w.slot i).fPcap = some f) (packet : Record) (b : Bool) :
    ((w.rtpDump i packet b).slot i).lastPacketTime = packet.ts := by
  have hne : (w.slot i).fPcap ≠ none := by simp [hf]
  rw [World.slot, World.ct_rtpDump, if_neg hne, Calltable.slot_modify_of_used hu, if_pos rfl]
  rfl

/-- The operations of a packet at the time `now` keep the invariant. -/
lemma Tracked.next {op : WorldOp} (hop : (world host libbsd).allowed w op) (hp : op.OfPacket p)
    (h : Tracked p.ts w) : Tracked p.ts ((world host libbsd).next w op) := by
  have htable := h.owns.tableInv
  refine ⟨h.owns.next hop, h.known.next h.owns host libbsd op, fun i hu => ?_,
    fun i f j r hf hd => ?_⟩
  · rcases slot_next hop htable i with
      hs | ⟨T, rfl, -⟩ | ⟨_, _, _, _, rfl, -, hs⟩ | ⟨_, _, _, rfl, -⟩
    · rw [hs.isUsed] at hu
      have hle := h.lastPacketTime_le i hu
      rcases lastPacketTime_next hop hp htable i with hl | hl <;> omega
    · exact hp.elim
    · obtain rfl := hp
      rw [hs]
      exact le_refl _
    · have hle := h.lastPacketTime_le i hop.1
      rcases lastPacketTime_next hop hp htable i with hl | hl <;> omega
  · -- the file was in the element before, since a new file has not been written to
    have hold : .dump (.rtp j) f r ∈ w.log ∨ (w.slot i).fPcap = some f →
        (w.slot i).fPcap = some f := by
      rintro (hd | hi)
      · rcases slot_next hop htable i with
          hs | ⟨T, rfl, -⟩ | ⟨_, _, _, _, -, -, hs⟩ | ⟨_, _, _, -, hs⟩
        · exact hs.fPcap.symm.trans hf
        · exact hp.elim
        · rw [hs] at hf
          exact absurd hf (by simp [CalltableElement.init])
        · rw [hs] at hf
          exact absurd (h.known.dumped _ f r hd) (host.not_mem_opened hf)
      · exact hi
    rcases dump_next host libbsd hd with hd | ⟨k, b, rfl, hvia, hk⟩ | ⟨_, _, _, -, hvia, -⟩ |
      ⟨_, _, _, -, hvia, -⟩
    · have hi := hold (Or.inl hd)
      have hle := h.rtp_le i f j r hi hd
      have hu := h.lastPacketTime_le i (htable.used_of_fPcap hi)
      rcases lastPacketTime_next hop hp htable i with hl | hl <;> omega
    · have hi : (w.slot i).fPcap = some f := by
        rcases slot_next hop htable i with hs | ⟨_, hc, -⟩ | ⟨_, _, _, _, hc, -⟩ | ⟨_, _, _, hc, -⟩
        · exact hs.fPcap.symm.trans hf
        · exact absurd hc (by simp)
        · exact absurd hc (by simp)
        · exact absurd hc (by simp)
      -- no two elements have one file, so the packet is one of this call
      obtain rfl := h.owns.inj i k f hi hk
      exact (lastPacketTime_rtpDump (htable.used_of_fPcap hi) hi r b).symm.le
    · simp at hvia
    · simp at hvia

/-- A pass keeps the invariant. -/
lemma Tracked.cleanup {now : ℤ} (h : Tracked now w) (currtime : ℤ) :
    Tracked now (w.cleanup currtime) := by
  have howns : Owns (w.cleanup currtime) := h.owns.cleanup currtime
  refine ⟨howns, h.known.next h.owns Host.numbering true (.cleanup currtime),
    fun i hu => ?_, fun i f j r hf hd => ?_⟩
  · obtain ⟨-, hsame⟩ := w.slot_of_used_cleanup hu
    rw [hsame] at hu ⊢
    exact h.lastPacketTime_le i hu
  · obtain ⟨-, hsame⟩ := w.slot_of_used_cleanup (howns.tableInv.used_of_fPcap hf)
    rw [hsame] at hf ⊢
    rw [← World.mem_written, World.written_cleanup, World.mem_written] at hd
    exact h.rtp_le i f j r hf hd

/-! ### Runs -/

lemma Tracked.mono {now now' : ℤ} (h : Tracked now w) (hle : now ≤ now') : Tracked now' w :=
  ⟨h.owns, h.known, fun i hu => (h.lastPacketTime_le i hu).trans hle, h.rtp_le⟩

lemma tracked_start (o : Options) (now : ℤ) : Tracked now o.start.world := by
  have hzero : ∀ i, o.start.world.slot i = CalltableElement.zero := Calltable.slot_create _ _
  refine ⟨owns_start o, ⟨fun via f r hd => ?_, fun aai f hf => ?_⟩, fun i hu => ?_,
    fun i f j r _ hd => ?_⟩
  · simp [Options.start] at hd
  · simp [Options.start, Calltable.create] at hf
  · rw [hzero] at hu
    exact absurd hu (by decide)
  · simp [Options.start] at hd

lemma Tracked.capture {now : ℤ} {s : State} (h : Tracked now s.world) (hle : now ≤ p.ts) :
    Tracked p.ts ((loop o host).next s (.packet p)).world := by
  have hpass : Tracked p.ts (afterPass s (.packet p)).world :=
    afterPass_invariant (h.mono hle) fun currtime _ => (h.mono hle).cleanup currtime
  exact dispatch_invariant (fun _ hw => hw.owns.tableInv) (fun w op hop hp hw => hw.next hop hp)
    hpass

/-- A pass frees only idle calls exactly when it meets none that is kept alive by signalling
alone. -/
lemma Tracked.freesIdle_iff {now : ℤ} {s : State} (h : Tracked now s.world) (a : Input) :
    FreesIdle s a ↔ SignallingCondition s a := by
  refine forall_congr' fun currtime => forall_congr' fun _ => ?_
  constructor
  · intro hfrees i j f r hu hf hlast hfirst hd
    have hdue : s.world.ct.due currtime (s.world.slot i) := by
      simp [CalltableElement.expired, hu, hlast]
    -- the element is freed, so one of the two reasons holds
    rcases hfrees i hdue with hlimit | hidle
    · omega
    · have hr := hidle f r hf ⟨j, Or.inr hd⟩
      omega
  · intro hcond i hdue
    by_cases hlimit : currtime - (s.world.slot i).firstPacketTime > s.world.ct.optAbsoluteTimeout
    · exact Or.inl hlimit
    · right
      have hu := Calltable.used_of_due hdue
      have hlast : currtime - (s.world.slot i).lastPacketTime > 300 := by
        simp only [CalltableElement.expired, hu, Bool.true_and, Bool.or_eq_true,
          decide_eq_true_eq] at hdue
        exact hdue.resolve_right hlimit
      rintro f r hf ⟨j, hd | hd⟩
      · -- media cannot be later than the time of the last packet
        have hle := h.rtp_le i f j r hf hd
        omega
      · have hr := hcond i j f r hu hf hlast (by omega) hd
        omega

/-- **When only idle calls expire.**  In a run over packets with non-decreasing time stamps every
pass frees only calls that are idle or over the limit exactly when no pass meets a call within
the limit that had no media for more than 300 seconds but a SIP message in these 300 seconds. -/
theorem frees_idle_iff (o : Options) (host : Host) (ps : List Packet)
    (hmono : ps.Pairwise fun p q => p.ts ≤ q.ts) :
    (loop o host).Along FreesIdle o.start (ps.map .packet) ↔
      (loop o host).Along SignallingCondition o.start (ps.map .packet) := by
  have hruns : ∀ (ps : List Packet) (now : ℤ) (s : State), Tracked now s.world →
      (∀ p ∈ ps, now ≤ p.ts) → ps.Pairwise (fun p q => p.ts ≤ q.ts) →
      ((loop o host).Along FreesIdle s (ps.map .packet) ↔
        (loop o host).Along SignallingCondition s (ps.map .packet)) := by
    -- by induction on the packets, with the time of the last one in the invariant
    intro ps
    induction ps with
    | nil => exact fun _ _ _ _ _ => Iff.rfl
    | cons p ps ih =>
      intro now s h hle hmono
      obtain ⟨hfirst, hrest⟩ := List.pairwise_cons.mp hmono
      have hnext : Tracked p.ts ((loop o host).next s (.packet p)).world :=
        h.capture (hle p (by simp))
      exact and_congr (h.freesIdle_iff (.packet p)) (ih p.ts _ hnext hfirst hrest)
  rcases ps with _ | ⟨p, ps⟩
  · exact Iff.rfl
  · refine hruns (p :: ps) p.ts o.start (tracked_start o p.ts) ?_ hmono
    intro q hq
    rcases List.mem_cons.mp hq with rfl | hq
    · exact le_refl _
    · exact (List.pairwise_cons.mp hmono).1 q hq

/-- A call of two messages ten seconds apart: no pass meets it. -/
theorem frees_idle_shortCall :
    (loop Options.raw Host.numbering).Along FreesIdle Options.raw.start
      ([.captured 1000 (invite "x"), .captured 1010 (invite "x")].map .packet) := by
  refine (frees_idle_iff Options.raw Host.numbering _ (by simp [Packet.captured])).mpr
    ⟨?_, ?_, trivial⟩
  · intro currtime _ i j f r hu
    have hzero : Options.raw.start.world.slot i = CalltableElement.zero :=
      Calltable.slot_create _ _ i
    rw [hzero] at hu
    exact absurd hu (by decide)
  · intro currtime hT
    have hnone : passTime ((loop Options.raw Host.numbering).next Options.raw.start
        (.packet (.captured 1000 (invite "x")))) (.packet (.captured 1010 (invite "x"))) =
          none := by
      decide +kernel
    exact absurd (hnone.symm.trans hT) (by simp)

/-- A call that is signalled again after 290 seconds is freed 20 seconds later. -/
theorem frees_idle_false :
    let s := (loop Options.raw Host.numbering).run Options.raw.start
      [.packet (.captured 1000 (invite "x")), .packet (.captured 1290 (invite "x"))]
    passTime s (.packet (.captured 1310 (invite "y"))) = some 1310 ∧
      s.world.ct.due 1310 (s.world.slot 0) = true ∧
      ¬1310 - (s.world.slot 0).firstPacketTime > s.world.ct.optAbsoluteTimeout ∧
      (s.world.slot 0).fPcap = some 1 ∧
      .dump (.sip 0) 1 (Packet.captured 1290 (invite "x")).record ∈ s.world.log := by
  decide +kernel

end PcapSipDump
