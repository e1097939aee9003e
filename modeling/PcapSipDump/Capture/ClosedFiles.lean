import PcapSipDump.Capture.Ownership

/-!
# Writes to closed files

A dumper is held in the element of its call and, while fragments of a message are expected, in
the fragment map.  A pass that closes it clears the element only.  So a run writes to open
dumpers only, and keeps the fragment map free of closed ones, exactly when no pass closes a
dumper that is still in the fragment map (`noClosedFile_iff`).
-/

namespace PcapSipDump

open Lib Lib.CString Lib.SlotTable

variable {o : Options} {host : Host} {libbsd : Bool} {w : World}

/-- Every dumper in the fragment map is open. -/
def FragsLive (w : World) : Prop :=
  ∀ aai f, w.ct.ipfrags aai = some (some f) → pcapFiles.Live w.log f

/-- Everything written so far went to a dumper that was open, and the fragment map holds no
closed dumper. -/
structure NoClosedFile (w : World) : Prop where
  safe : pcapFiles.Safe w.log
  fragsLive : FragsLive w

/-- No pass at the time closes a dumper that is in the fragment map. -/
def KeepsFragFiles (w : World) (currtime : ℤ) : Prop :=
  ∀ i f, w.ct.due currtime (w.slot i) → (w.slot i).fPcap = some f →
    ∀ aai, w.ct.ipfrags aai ≠ some (some f)

/-- The condition on an input: its pass, if there is one, closes no dumper that is in the
fragment map. -/
def FragCondition (s : State) (a : Input) : Prop :=
  ∀ currtime, passTime s a = some currtime → KeepsFragFiles s.world currtime

/-- Nothing is written to a closed file, and none is left in the fragment map, by the pass of an
input and by the rest of it. -/
def WritesOpenFiles (o : Options) (host : Host) (s : State) (a : Input) : Prop :=
  NoClosedFile (afterPass s a).world ∧ NoClosedFile ((loop o host).next s a).world

/-! ### Operations other than passes -/

/-- What an operation puts into the fragment map is the dumper of an element. -/
lemma ipfrags_next {op : WorldOp} (hpass : ∀ currtime, op ≠ .cleanup currtime)
    {aai : AddrAddrId} {f : Handle}
    (h : ((world host libbsd).next w op).ct.ipfrags aai = some (some f)) :
    w.ct.ipfrags aai = some (some f) ∨ ∃ i, (w.slot i).fPcap = some f := by
  cases op with
  | cleanup currtime => exact absurd rfl (hpass currtime)
  | findIpPortSsrc addr port ssrc =>
    left
    rcases w.ct.findIpPortSsrc_cases addr port ssrc with ⟨-, he⟩ | ⟨i, j, -, he⟩ <;>
      (simp only [world, World.findIpPortSsrc, he] at h; exact h)
  | rtpDump i packet packetbuffered =>
    left
    simp only [world, World.ct_rtpDump] at h
    split at h <;> exact h
  | sipDump i packet bye packetbuffered =>
    left
    simpa only [world, World.ct_sipDump] using h
  | addIpfrag aai' i =>
    by_cases haai : aai = aai'
    · subst haai
      right
      refine ⟨i, ?_⟩
      simpa [world, World.addIpfrag, Calltable.addIpfrag] using h
    · left
      simpa [world, World.addIpfrag, Calltable.addIpfrag, haai] using h
  | fragment aai' packet last packetbuffered =>
    left
    rcases hf : w.ct.ipfrags aai' with _ | _ | g
    · -- `operator[]` adds the missing key with NULL
      by_cases haai : aai = aai'
      · subst haai
        simp [world, World.fragment, Calltable.getIpfrag, hf, Calltable.addIpfrag] at h
      · simpa [world, World.fragment, Calltable.getIpfrag, hf, Calltable.addIpfrag, haai] using h
    · simpa only [world, World.fragment, Calltable.getIpfrag, hf] using h
    · cases last
      · simpa [world, World.fragment, Calltable.getIpfrag, hf] using h
      · by_cases haai : aai = aai'
        · subst haai
          simp [world, World.fragment, Calltable.getIpfrag, hf, Calltable.deleteIpfrag] at h
        · simpa [world, World.fragment, Calltable.getIpfrag, hf, Calltable.deleteIpfrag, haai]
            using h
  | _ => exact Or.inl h

/-- The calls of an operation other than a pass close nothing and write to open dumpers. -/
lemma log_next_live (host : Host) (libbsd : Bool) (howns : Owns w) (hfrags : FragsLive w)
    {op : WorldOp} (hpass : ∀ currtime, op ≠ .cleanup currtime) :
    ∃ events, ((world host libbsd).next w op).log = w.log ++ events ∧
      (∀ e ∈ events, pcapFiles.closes e = none) ∧
      ∀ e ∈ events, ∀ f, pcapFiles.uses e = some f → pcapFiles.Live w.log f := by
  rcases op.pass_or_open_or_other with
    ⟨currtime, rfl⟩ | ⟨i, callId, fn, dir, rfl⟩ | ⟨-, hopen⟩
  · exact absurd rfl (hpass currtime)
  · refine ⟨_, w.log_openFile i callId fn dir, ?_, ?_⟩
    · rcases dir with _ | d <;> simp [pcapFiles]
    · rcases dir with _ | d <;> simp [pcapFiles]
  · obtain ⟨events, hlog, hquiet, huses⟩ := log_next host libbsd hpass hopen
    refine ⟨events, hlog, fun e he => (hquiet e he).2, fun e he f hf => ?_⟩
    rcases huses e he f hf with ⟨i, hi⟩ | ⟨aai, haai⟩
    · exact howns.live hi
    · exact hfrags aai f haai

lemma NoClosedFile.next (h : NoClosedFile w) (howns : Owns w) {op : WorldOp}
    (hpass : ∀ currtime, op ≠ .cleanup currtime) :
    NoClosedFile ((world host libbsd).next w op) := by
  obtain ⟨events, hlog, hcloses, huses⟩ := log_next_live host libbsd howns
    h.fragsLive hpass
  refine ⟨?_, fun aai f hf => ?_⟩
  · rw [hlog]
    exact h.safe.append hcloses huses
  · have hlive : pcapFiles.Live w.log f := by
      rcases ipfrags_next hpass hf with haai | ⟨i, hi⟩
      · exact h.fragsLive aai f haai
      · exact howns.live hi
    rw [hlog]
    exact hlive.append fun e he => by simp [hcloses e he]

/-! ### Passes -/

/-- Each file is flushed before it is closed, and no file is closed twice. -/
lemma safe_closeEvents {es : List CalltableElement} {eraseNonT38 : Bool} {log : List IoEvent}
    (hs : pcapFiles.Safe log) (hlive : ∀ f ∈ es.filterMap CalltableElement.fPcap,
      pcapFiles.Live log f) (hnodup : (es.filterMap CalltableElement.fPcap).Nodup) :
    pcapFiles.Safe (log ++ es.flatMap (CalltableElement.closeEvents eraseNonT38)) := by
  induction es generalizing log with
  | nil => simpa using hs
  | cons e es ih =>
    rw [List.flatMap_cons, ← List.append_assoc]
    rcases hf : e.fPcap with _ | f
    · rw [List.filterMap_cons_none hf] at hlive hnodup
      rw [CalltableElement.closeEvents_none hf, List.append_nil]
      exact ih hs hlive hnodup
    · rw [List.filterMap_cons_some hf] at hlive hnodup
      obtain ⟨hnew, hrest⟩ := List.nodup_cons.mp hnodup
      have hclosed : pcapFiles.closed (e.closeEvents eraseNonT38) = [f] := by
        rw [closed_closeEvents, hf]
        rfl
      -- the flush comes while the dumper is open, and the later ones are other dumpers
      refine ih ?_ (fun g hg => ?_) hrest
      · have hflush : pcapFiles.Safe (log ++ [.flush f]) := by
          refine pcapFiles.safe_concat.mpr ⟨hs, fun g hg => ?_⟩
          obtain rfl : f = g := Option.some.inj hg
          exact hlive f (by simp)
        have hclose : ∀ e' : IoEvent, pcapFiles.uses e' = none →
            pcapFiles.Safe (log ++ [.flush f, .close f, e']) := by
          intro e' he'
          have h1 : pcapFiles.Safe ((log ++ [.flush f]) ++ [.close f]) :=
            pcapFiles.safe_concat.mpr ⟨hflush, fun g hg => absurd hg (by simp [pcapFiles])⟩
          have h2 := pcapFiles.safe_concat.mpr ⟨h1, fun g hg => absurd (he'.symm.trans hg)
            (by simp)⟩
          simpa using h2
        rw [CalltableElement.closeEvents_some hf]
        refine hclose _ ?_
        rcases e.finishEvent_cases eraseNonT38 with h | h <;> rw [h] <;> rfl
      · refine (hlive g (by simp [hg])).append fun e' he' hc => ?_
        have hmem : g ∈ pcapFiles.closed (e.closeEvents eraseNonT38) :=
          pcapFiles.mem_closed.mpr ⟨e', he', hc⟩
        rw [hclosed, List.mem_singleton] at hmem
        exact hnew (hmem ▸ hg)

/-- A pass writes to open dumpers only. -/
lemma safe_cleanup (howns : Owns w) (h : pcapFiles.Safe w.log) (currtime : ℤ) :
    pcapFiles.Safe (w.cleanup currtime).log := by
  have hevents : (w.ct.doCleanup currtime).2 = (w.ct.table.filter (w.ct.due currtime)).flatMap
      (CalltableElement.closeEvents w.ct.eraseNonT38) := by
    simp only [Calltable.doCleanup]
    induction w.ct.table with
    | nil => rfl
    | cons e es ih =>
      rw [List.flatMap_cons, ih, List.filter_cons]
      split <;> rfl
  rw [World.cleanup, hevents]
  refine safe_closeEvents h (fun f hf => ?_) (nodup_freedFiles currtime howns.inj)
  obtain ⟨i, -, hi⟩ := mem_freedFiles.mp hf
  exact howns.live hi

/-- A pass leaves no closed dumper in the fragment map exactly when it closes none that is in
the fragment map. -/
lemma fragsLive_cleanup_iff (h : FragsLive w) (currtime : ℤ) :
    FragsLive (w.cleanup currtime) ↔ KeepsFragFiles w currtime := by
  have hlive : ∀ f, pcapFiles.Live (w.cleanup currtime).log f ↔
      pcapFiles.Live w.log f ∧ f ∉ freedFiles w.ct currtime := by
    intro f
    rw [Usage.Live, Usage.Live, World.cleanup, Usage.opened_append, Usage.closed_append,
      opened_doCleanup, closed_doCleanup, List.append_nil, List.mem_append, not_or, and_assoc]
  constructor
  · intro hcleanup i f hd hf aai haai
    exact ((hlive f).mp (hcleanup aai f haai)).2 (mem_freedFiles.mpr ⟨i, hd, hf⟩)
  · intro hkeeps aai f haai
    refine (hlive f).mpr ⟨h aai f haai, fun hfreed => ?_⟩
    obtain ⟨i, hd, hi⟩ := mem_freedFiles.mp hfreed
    exact hkeeps i f hd hi aai haai

/-! ### Runs -/

lemma noClosedFile_afterPass_iff {s : State} (howns : Owns s.world) (h : NoClosedFile s.world)
    (a : Input) : NoClosedFile (afterPass s a).world ↔ FragCondition s a := by
  rw [afterPass_world, FragCondition]
  rcases hT : passTime s a with _ | currtime
  · exact iff_of_true h (by simp)
  · simp only [Option.some.injEq, forall_eq']
    constructor
    · exact fun hc => (fragsLive_cleanup_iff h.fragsLive currtime).mp hc.fragsLive
    · exact fun hk => ⟨safe_cleanup howns h.safe currtime,
        (fragsLive_cleanup_iff h.fragsLive currtime).mpr hk⟩

lemma NoClosedFile.loop {s : State} {a : Input} (howns : Owns (afterPass s a).world)
    (h : NoClosedFile (afterPass s a).world) :
    NoClosedFile ((PcapSipDump.loop o host).next s a).world := by
  refine (next_invariant (P := fun w => Owns w ∧ NoClosedFile w) (fun _ hw => hw.1.tableInv)
    ?_ ⟨howns, h⟩).2
  rintro w op p hop hp ⟨hw, hn⟩
  refine ⟨hw.next hop, hn.next hw ?_⟩
  rintro currtime rfl
  exact hp

/-- **When nothing is written to a closed file.**  A run of the capture loop writes only to open
dumpers, and never has a closed one in the fragment map, exactly when none of its passes closes
a dumper that is in the fragment map. -/
theorem noClosedFile_iff (o : Options) (host : Host) (inputs : List Input) :
    (loop o host).Along (WritesOpenFiles o host) o.start inputs ↔
      (loop o host).Along FragCondition o.start inputs := by
  have hstart : NoClosedFile o.start.world :=
    ⟨pcapFiles.safe_nil, fun aai f hf => absurd hf (by simp [Options.start, Calltable.create])⟩
  refine Machine.along_iff_along (I := fun s => Owns s.world ∧ NoClosedFile s.world) ?_ ?_
    (legal_loop o host o.start inputs) ⟨owns_start o, hstart⟩
  · rintro s a - ⟨howns, h⟩ hcond
    exact ⟨howns.loop a, NoClosedFile.loop (howns.afterPass a)
      ((noClosedFile_afterPass_iff howns h a).mpr hcond)⟩
  · rintro s a - ⟨howns, h⟩
    constructor
    · exact fun hw => (noClosedFile_afterPass_iff howns h a).mp hw.1
    · intro hcond
      have hafter := (noClosedFile_afterPass_iff howns h a).mpr hcond
      exact ⟨hafter, NoClosedFile.loop (howns.afterPass a) hafter⟩

/-- The first fragment of an INVITE, and more than 300 seconds later the second one: its pass
closes the file of the call, and then the fragment is written to it. -/
theorem noClosedFile_false :
    let fragment (ts : ℤ) (fragOff : UInt16) : Packet := .captured ts
      (ipv4Udp 7 fragOff [10, 0, 0, 1] [10, 0, 0, 2] 5060 5060 (sipRequest "INVITE" "x" []))
    let w := ((loop Options.raw Host.numbering).run Options.raw.start
      [.packet (fragment 1000 0x2000), .packet (fragment 1400 0x0001)]).world
    ¬pcapFiles.Safe w.log := by
  intro fragment w hsafe
  have hlast : w.log.getLast? = some (.dump (.ipfrag ⟨0x0100000a, 0x0200000a, 0x0700⟩) 1
      (fragment 1400 0x0001).record) := by decide +kernel
  have hclosed : 1 ∈ pcapFiles.closed w.log.dropLast := by decide +kernel
  have hlog := List.dropLast_append_getLast? _ hlast
  exact (hsafe _ _ [] hlog.symm 1 rfl).2 hclosed

end PcapSipDump
