import PcapSipDump.Capture.Steps

/-!
# Who owns a dumper

`main` opens a dumper and stores it in an element, a cleanup pass closes it.  In every state of
the capture loop the dumpers that are open are exactly those in the used elements, each in one
of them, and none has been closed twice (`dumper_ownership`).  The invariant `Owns` is kept by
every operation: opening adds a fresh handle, a pass takes out of the elements exactly what it
closes, and no other operation opens, closes or moves a handle.

The same step lemmas say that an element that is given to a new call is as good as new
(`add_leaves_no_residue`).
-/

namespace PcapSipDump

open Lib Lib.CString Lib.SlotTable

/-- Calls that open and close nothing. -/
def Quiet (events : List IoEvent) : Prop :=
  ∀ e ∈ events, pcapFiles.opens e = none ∧ pcapFiles.closes e = none

lemma Quiet.opened {events : List IoEvent} (h : Quiet events) : pcapFiles.opened events = [] :=
  List.filterMap_eq_nil_iff.mpr fun e he => (h e he).1

lemma Quiet.closed {events : List IoEvent} (h : Quiet events) : pcapFiles.closed events = [] :=
  List.filterMap_eq_nil_iff.mpr fun e he => (h e he).2

/-- The calls of `pcap_dump` and `pcap_dump_flush` for one packet. -/
lemma quiet_dump (via : Via) (f : Handle) (packet : Record) (flushes : List Bool) :
    Quiet (.dump via f packet :: (flushes.filter id).map fun _ => .flush f) := by
  intro e he
  rcases List.mem_cons.mp he with rfl | he
  · exact ⟨rfl, rfl⟩
  · obtain ⟨b, -, rfl⟩ := List.mem_map.mp he
    exact ⟨rfl, rfl⟩

/-- The dumpers that those calls write to. -/
lemma uses_dump {via : Via} {f g : Handle} {packet : Record} {flushes : List Bool} {e : IoEvent}
    (he : e ∈ IoEvent.dump via f packet :: (flushes.filter id).map fun _ => .flush f)
    (hu : pcapFiles.uses e = some g) : g = f := by
  rcases List.mem_cons.mp he with rfl | he
  · exact (Option.some.inj hu).symm
  · obtain ⟨b, -, rfl⟩ := List.mem_map.mp he
    exact (Option.some.inj hu).symm

variable {o : Options} {host : Host} {libbsd : Bool} {w : World}

/-- Only passes and openings of files open or close dumpers. -/
lemma WorldOp.pass_or_open_or_other (op : WorldOp) : (∃ currtime, op = .cleanup currtime) ∨
    (∃ i callId fn dir, op = .openFile i callId fn dir) ∨
    ((∀ currtime, op ≠ .cleanup currtime) ∧
      ∀ i callId fn dir, op ≠ .openFile i callId fn dir) := by
  cases op with
  | cleanup currtime => exact Or.inl ⟨currtime, rfl⟩
  | openFile i callId fn dir => exact Or.inr (Or.inl ⟨i, callId, fn, dir, rfl⟩)
  | _ => exact Or.inr (Or.inr ⟨by simp, by simp⟩)

/-- The calls that opening a file makes. -/
lemma World.log_openFile (w : World) (i : ℕ) (callId fn : Bytes) (dir : Option Bytes) :
    (w.openFile host libbsd i callId fn dir).log = w.log ++ ((dir.map IoEvent.mkdirP).toList ++
      [.dumpOpen callId fn (host.dumpOpen (w.log ++ (dir.map IoEvent.mkdirP).toList) fn)]) :=
  List.append_assoc _ _ _

/-- The dumper that is opened goes into the element. -/
lemma World.fPcap_openFile {i : ℕ} (hu : (w.slot i).isUsed) (host : Host) (libbsd : Bool)
    (callId fn : Bytes) (dir : Option Bytes) (j : ℕ) :
    ((w.openFile host libbsd i callId fn dir).slot j).fPcap =
      if j = i then host.dumpOpen (w.log ++ (dir.map IoEvent.mkdirP).toList) fn
      else (w.slot j).fPcap := by
  have hs := Calltable.slot_modify_of_used hu (ElementWrite.apply (.file
    (host.dumpOpen (w.log ++ (dir.map IoEvent.mkdirP).toList) fn)
    (strlcpy libbsd (w.slot i).fnPcap fn))) j
  rw [World.slot, World.openFile, World.write, hs]
  split <;> rfl

/-- **What an operation can write.**  An operation other than a pass or the opening of a file
opens and closes nothing, and writes only to a dumper that is in an element or in the fragment
map. -/
theorem log_next (host : Host) (libbsd : Bool) {op : WorldOp}
    (hpass : ∀ currtime, op ≠ .cleanup currtime)
    (hopen : ∀ i callId fn dir, op ≠ .openFile i callId fn dir) :
    ∃ events, ((world host libbsd).next w op).log = w.log ++ events ∧ Quiet events ∧
      ∀ e ∈ events, ∀ f, pcapFiles.uses e = some f →
        (∃ i, (w.slot i).fPcap = some f) ∨ ∃ aai, w.ct.ipfrags aai = some (some f) := by
  have hnil : ∀ {v : World}, v.log = w.log → ∃ events, v.log = w.log ++ events ∧ Quiet events ∧
      ∀ e ∈ events, ∀ f, pcapFiles.uses e = some f →
        (∃ i, (w.slot i).fPcap = some f) ∨ ∃ aai, w.ct.ipfrags aai = some (some f) :=
    fun hv => ⟨[], by simpa using hv, by simp [Quiet], by simp⟩
  cases op with
  | cleanup currtime => exact absurd rfl (hpass currtime)
  | openFile i callId fn dir => exact absurd rfl (hopen i callId fn dir)
  | findIpPortSsrc addr port ssrc => exact hnil rfl
  | noFile i => exact hnil rfl
  | bye i => exact hnil rfl
  | sdp i e => exact hnil rfl
  | addIpfrag aai i => exact hnil rfl
  | add callId caller callee time =>
    refine ⟨(w.ct.add callId caller callee time).2.2, rfl, ?_, ?_⟩
    · intro e he
      obtain rfl := List.mem_singleton.mp he
      exact ⟨rfl, rfl⟩
    · intro e he f hf
      obtain rfl := List.mem_singleton.mp he
      exact absurd hf (by simp [pcapFiles, CalltableElement.triggerEvent])
  | rtpDump i packet packetbuffered =>
    rcases hf : (w.slot i).fPcap with _ | f
    · exact hnil (by simp [world, World.rtpDump, hf])
    · refine ⟨_, by simp only [world, World.rtpDump, hf]; rfl, quiet_dump _ f _ _, ?_⟩
      intro e he g hg
      obtain rfl := uses_dump he hg
      exact Or.inl ⟨i, hf⟩
  | sipDump i packet bye packetbuffered =>
    rcases hf : (w.slot i).fPcap with _ | f
    · exact hnil (by simp [world, World.sipDump, hf])
    · refine ⟨_, by simp only [world, World.sipDump, hf]; rfl, quiet_dump _ f _ _, ?_⟩
      intro e he g hg
      obtain rfl := uses_dump he hg
      exact Or.inl ⟨i, hf⟩
  | fragment aai packet last packetbuffered =>
    rcases hf : w.ct.ipfrags aai with _ | _ | f
    · exact hnil (by simp [world, World.fragment, Calltable.getIpfrag, hf])
    · exact hnil (by simp [world, World.fragment, Calltable.getIpfrag, hf])
    · refine ⟨_, ?_, quiet_dump (.ipfrag aai) f packet [packetbuffered], ?_⟩
      · simp only [world, World.fragment, Calltable.getIpfrag, hf]
        cases last <;> rfl
      · intro e he g hg
        obtain rfl := uses_dump he hg
        exact Or.inr ⟨aai, hf⟩

/-- The log only grows. -/
lemma log_grows (host : Host) (libbsd : Bool) (op : WorldOp) :
    ∃ events, ((world host libbsd).next w op).log = w.log ++ events := by
  rcases op.pass_or_open_or_other with
    ⟨currtime, rfl⟩ | ⟨i, callId, fn, dir, rfl⟩ | ⟨hpass, hopen⟩
  · exact ⟨_, rfl⟩
  · exact ⟨_, w.log_openFile i callId fn dir⟩
  · obtain ⟨events, hlog, -⟩ := log_next host libbsd hpass hopen
    exact ⟨events, hlog⟩

/-- An operation other than a pass or the opening of a file moves no dumper. -/
lemma fPcap_next {op : WorldOp} (hop : (world host libbsd).allowed w op) (h : w.ct.TableInv)
    (hpass : ∀ currtime, op ≠ .cleanup currtime)
    (hopen : ∀ i callId fn dir, op ≠ .openFile i callId fn dir) (i : ℕ) :
    (((world host libbsd).next w op).slot i).fPcap = (w.slot i).fPcap := by
  rcases slot_next hop h i with hs | ⟨T, rfl, -⟩ | ⟨_, _, _, _, -, rfl, hs⟩ | ⟨_, _, _, rfl, -⟩
  · exact hs.fPcap
  · exact absurd rfl (hpass T)
  · -- the element that is chosen was unused, so it had no dumper
    have hzero : w.slot w.ct.addIdx = CalltableElement.zero :=
      h.unusedZero _ w.ct.isUsed_addIdx
    rw [hs, hzero]
    rfl
  · exact absurd rfl (hopen _ _ _ _)

/-! ### What a pass closes -/

/-- The dumpers that a pass closes, in order. -/
def freedFiles (ct : Calltable) (currtime : ℤ) : List Handle :=
  (ct.table.filter (ct.due currtime)).filterMap CalltableElement.fPcap

namespace CalltableElement

/-- The last call that a pass makes for an element with a file. -/
def finishEvent (eraseNonT38 : Bool) (e : CalltableElement) : IoEvent :=
  if eraseNonT38 && !e.hadT38 then .unlink e.fnPcapStr else e.triggerEvent .close

lemma finishEvent_cases (eraseNonT38 : Bool) (e : CalltableElement) :
    e.finishEvent eraseNonT38 = .unlink e.fnPcapStr ∨
      e.finishEvent eraseNonT38 = e.triggerEvent .close := by
  rw [finishEvent]
  split
  · exact Or.inl rfl
  · exact Or.inr rfl

lemma closeEvents_none {e : CalltableElement} (hf : e.fPcap = none) (eraseNonT38 : Bool) :
    e.closeEvents eraseNonT38 = [] := by
  rw [closeEvents, hf]

/-- An element with a file gets three calls. -/
lemma closeEvents_some {e : CalltableElement} {f : Handle} (hf : e.fPcap = some f)
    (eraseNonT38 : Bool) :
    e.closeEvents eraseNonT38 = [.flush f, .close f, e.finishEvent eraseNonT38] := by
  rw [closeEvents, hf]
  rfl

end CalltableElement

lemma opened_closeEvents (eraseNonT38 : Bool) (e : CalltableElement) :
    pcapFiles.opened (e.closeEvents eraseNonT38) = [] := by
  rcases hf : e.fPcap with _ | f
  · rw [CalltableElement.closeEvents_none hf]
    rfl
  · rw [CalltableElement.closeEvents_some hf]
    rcases e.finishEvent_cases eraseNonT38 with h | h <;> rw [h] <;> rfl

lemma closed_closeEvents (eraseNonT38 : Bool) (e : CalltableElement) :
    pcapFiles.closed (e.closeEvents eraseNonT38) = e.fPcap.toList := by
  rcases hf : e.fPcap with _ | f
  · rw [CalltableElement.closeEvents_none hf]
    rfl
  · rw [CalltableElement.closeEvents_some hf]
    rcases e.finishEvent_cases eraseNonT38 with h | h <;> rw [h] <;> rfl

lemma opened_doCleanup (ct : Calltable) (currtime : ℤ) :
    pcapFiles.opened (ct.doCleanup currtime).2 = [] := by
  simp only [Calltable.doCleanup]
  induction ct.table with
  | nil => rfl
  | cons e es ih =>
    rw [List.flatMap_cons, Usage.opened_append, ih]
    split
    · rw [opened_closeEvents, List.append_nil]
    · rfl

lemma closed_doCleanup (ct : Calltable) (currtime : ℤ) :
    pcapFiles.closed (ct.doCleanup currtime).2 = freedFiles ct currtime := by
  simp only [Calltable.doCleanup, freedFiles]
  induction ct.table with
  | nil => rfl
  | cons e es ih =>
    rw [List.flatMap_cons, Usage.closed_append, ih]
    by_cases hd : ct.due currtime e
    · rw [if_pos hd, closed_closeEvents, List.filter_cons_of_pos hd]
      rcases hf : e.fPcap with _ | f
      · rw [List.filterMap_cons_none hf]
        rfl
      · rw [List.filterMap_cons_some hf]
        rfl
    · rw [if_neg hd, List.filter_cons_of_neg hd]
      rfl

lemma mem_freedFiles {ct : Calltable} {currtime : ℤ} {f : Handle} :
    f ∈ freedFiles ct currtime ↔
      ∃ i, ct.due currtime (ct.slot i) ∧ (ct.slot i).fPcap = some f := by
  simp only [freedFiles, List.mem_filterMap, List.mem_filter]
  constructor
  · rintro ⟨e, ⟨he, hd⟩, hf⟩
    obtain ⟨i, -, rfl⟩ := exists_at_of_mem CalltableElement.zero he
    exact ⟨i, hd, hf⟩
  · rintro ⟨i, hd, hf⟩
    refine ⟨ct.slot i, ⟨at_mem _ ?_, hd⟩, hf⟩
    exact Calltable.lt_length_of_used (Calltable.used_of_due hd)

/-- Dumpers that are in different elements are closed once each. -/
lemma nodup_freedFiles {ct : Calltable} (currtime : ℤ)
    (hinj : ∀ i j f, (ct.slot i).fPcap = some f → (ct.slot j).fPcap = some f → i = j) :
    (freedFiles ct currtime).Nodup := by
  refine List.pairwise_filterMap.mpr (List.Pairwise.filter _ ?_)
  rw [List.pairwise_iff_getElem]
  rintro i j hi hj hij f hf g hg rfl
  have hfi : (ct.slot i).fPcap = some f := by rwa [Calltable.slot, at_of_lt _ hi]
  have hgj : (ct.slot j).fPcap = some f := by rwa [Calltable.slot, at_of_lt _ hj]
  exact absurd (hinj i j f hfi hgj) (Nat.ne_of_lt hij)

/-! ### The invariant -/

/-- The open dumpers are those of the used elements, one each, and none is closed twice. -/
structure OwnsDumpers (w : World) : Prop where
  live_iff : ∀ f, pcapFiles.Live w.log f ↔ ∃ i, (w.slot i).isUsed ∧ (w.slot i).fPcap = some f
  inj : ∀ i j f, (w.slot i).fPcap = some f → (w.slot j).fPcap = some f → i = j
  closed_nodup : (pcapFiles.closed w.log).Nodup

/-- The invariant that the operations keep. -/
structure Owns (w : World) : Prop extends OwnsDumpers w where
  tableInv : w.ct.TableInv
  opened_of_closed : ∀ f ∈ pcapFiles.closed w.log, f ∈ pcapFiles.opened w.log

lemma Calltable.TableInv.used_of_fPcap {ct : Calltable} (h : ct.TableInv) {i : ℕ} {f : Handle}
    (hf : (ct.slot i).fPcap = some f) : (ct.slot i).isUsed := by
  by_contra hu
  rw [h.unusedZero i (by simpa using hu)] at hf
  simp [CalltableElement.zero] at hf

lemma Owns.live (h : Owns w) {i : ℕ} {f : Handle} (hf : (w.slot i).fPcap = some f) :
    pcapFiles.Live w.log f :=
  (h.live_iff f).mpr ⟨i, h.tableInv.used_of_fPcap hf, hf⟩

/-- Nothing is opened, closed or moved. -/
lemma Owns.of_quiet {w' : World} (h : Owns w) (htable : w'.ct.TableInv) {events : List IoEvent}
    (hlog : w'.log = w.log ++ events) (hquiet : Quiet events)
    (hslot : ∀ i, (w'.slot i).fPcap = (w.slot i).fPcap) : Owns w' := by
  have hopened : pcapFiles.opened w'.log = pcapFiles.opened w.log := by
    rw [hlog, Usage.opened_append, hquiet.opened, List.append_nil]
  have hclosed : pcapFiles.closed w'.log = pcapFiles.closed w.log := by
    rw [hlog, Usage.closed_append, hquiet.closed, List.append_nil]
  refine ⟨⟨fun f => ?_, fun i j f hi hj => ?_, ?_⟩, htable, ?_⟩
  · have hlive : pcapFiles.Live w'.log f ↔ pcapFiles.Live w.log f := by
      rw [Usage.Live, Usage.Live, hopened, hclosed]
    rw [hlive, h.live_iff]
    constructor
    · rintro ⟨i, -, hf⟩
      have hf' : (w'.slot i).fPcap = some f := (hslot i).trans hf
      exact ⟨i, htable.used_of_fPcap hf', hf'⟩
    · rintro ⟨i, -, hf⟩
      have hf' : (w.slot i).fPcap = some f := (hslot i).symm.trans hf
      exact ⟨i, h.tableInv.used_of_fPcap hf', hf'⟩
  · rw [hslot] at hi hj
    exact h.inj i j f hi hj
  · rw [hclosed]
    exact h.closed_nodup
  · rw [hopened, hclosed]
    exact h.opened_of_closed

/-- A pass closes the dumpers of the elements that it zeroes. -/
lemma Owns.cleanup (h : Owns w) (currtime : ℤ) : Owns (w.cleanup currtime) := by
  have hslot : ∀ i, ((w.cleanup currtime).slot i).fPcap =
      if w.ct.due currtime (w.slot i) then none else (w.slot i).fPcap := by
    intro i
    rw [World.slot, World.cleanup, Calltable.slot_doCleanup]
    split <;> rfl
  have hopened : pcapFiles.opened (w.cleanup currtime).log = pcapFiles.opened w.log := by
    rw [World.cleanup, Usage.opened_append, opened_doCleanup, List.append_nil]
  have hclosed : pcapFiles.closed (w.cleanup currtime).log =
      pcapFiles.closed w.log ++ freedFiles w.ct currtime := by
    rw [World.cleanup, Usage.closed_append, closed_doCleanup]
  have hkeep : ∀ i f, ((w.cleanup currtime).slot i).fPcap = some f →
      ¬w.ct.due currtime (w.slot i) ∧ (w.slot i).fPcap = some f := by
    intro i f hf
    rw [hslot] at hf
    by_cases hd : w.ct.due currtime (w.slot i)
    · simp [hd] at hf
    · exact ⟨hd, by rwa [if_neg hd] at hf⟩
  have htable : (w.cleanup currtime).ct.TableInv := h.tableInv.doCleanup currtime
  refine ⟨⟨fun f => ?_, fun i j f hi hj => ?_, ?_⟩, htable, fun f hf => ?_⟩
  · rw [Usage.Live, hopened, hclosed, List.mem_append, not_or]
    constructor
    · -- a dumper that is still open was in an element that the pass keeps
      rintro ⟨ho, hc, hfreed⟩
      obtain ⟨i, hu, hf⟩ := (h.live_iff f).mp ⟨ho, hc⟩
      have hd : ¬w.ct.due currtime (w.slot i) := fun hd => hfreed (mem_freedFiles.mpr ⟨i, hd, hf⟩)
      have hf' : ((w.cleanup currtime).slot i).fPcap = some f := by rw [hslot, if_neg hd, hf]
      exact ⟨i, htable.used_of_fPcap hf', hf'⟩
    · rintro ⟨i, -, hf⟩
      obtain ⟨hd, hf⟩ := hkeep i f hf
      obtain ⟨ho, hc⟩ := h.live hf
      refine ⟨ho, hc, fun hfreed => ?_⟩
      -- no other element has this dumper
      obtain ⟨j, hj, hfj⟩ := mem_freedFiles.mp hfreed
      obtain rfl := h.inj i j f hf hfj
      exact hd hj
  · exact h.inj i j f (hkeep i f hi).2 (hkeep j f hj).2
  · rw [hclosed]
    refine List.Nodup.append h.closed_nodup (nodup_freedFiles currtime h.inj) ?_
    intro f hf hfreed
    obtain ⟨i, -, hi⟩ := mem_freedFiles.mp hfreed
    exact (h.live hi).2 hf
  · rw [hopened]
    rw [hclosed, List.mem_append] at hf
    rcases hf with hf | hf
    · exact h.opened_of_closed f hf
    · obtain ⟨i, -, hi⟩ := mem_freedFiles.mp hf
      exact (h.live hi).1

/-- A new handle has not been opened before. -/
lemma Host.not_mem_opened {log es : List IoEvent} {fn : Bytes} {f : Handle}
    (h : host.dumpOpen (log ++ es) fn = some f) : f ∉ pcapFiles.opened log := by
  intro ho
  obtain ⟨e, he, hof⟩ := pcapFiles.mem_opened.mp ho
  cases e with
  | dumpOpen callId' fn' f' =>
    obtain rfl : f' = some f := hof
    exact host.dumpOpen_fresh _ _ _ h callId' fn' (by simp [he])
  | _ => exact absurd hof (by simp [pcapFiles])

/-- A file that is opened gets a fresh handle, which goes into one element. -/
lemma Owns.openFile (h : Owns w) {i : ℕ} (hu : (w.slot i).isUsed)
    (hnone : (w.slot i).fPcap = none) (callId fn : Bytes) (dir : Option Bytes) :
    Owns (w.openFile host libbsd i callId fn dir) := by
  have htable : (w.openFile host libbsd i callId fn dir).ct.TableInv := h.tableInv.write hu _
  have hmk : Quiet (dir.map IoEvent.mkdirP).toList := by
    intro e he
    obtain ⟨d, -, rfl⟩ := Option.map_eq_some_iff.mp (Option.mem_toList.mp he)
    exact ⟨rfl, rfl⟩
  have hslot := World.fPcap_openFile hu host libbsd callId fn dir
  have hclosed : pcapFiles.closed (w.openFile host libbsd i callId fn dir).log =
      pcapFiles.closed w.log := by
    rw [World.log_openFile, Usage.closed_append, Usage.closed_append, hmk.closed]
    simp [Usage.closed, pcapFiles]
  have hopened : pcapFiles.opened (w.openFile host libbsd i callId fn dir).log =
      pcapFiles.opened w.log ++
        (host.dumpOpen (w.log ++ (dir.map IoEvent.mkdirP).toList) fn).toList := by
    rw [World.log_openFile, Usage.opened_append, Usage.opened_append, hmk.opened,
      List.nil_append]
    rcases host.dumpOpen (w.log ++ (dir.map IoEvent.mkdirP).toList) fn with _ | f <;> rfl
  have hfresh : ∀ f, host.dumpOpen (w.log ++ (dir.map IoEvent.mkdirP).toList) fn = some f →
      f ∉ pcapFiles.opened w.log := fun f hf => host.not_mem_opened hf
  have hold : ∀ j f, (w.slot j).fPcap = some f → j ≠ i := by
    rintro j f hf rfl
    simp [hnone] at hf
  have hnew : ∀ j f, ((w.openFile host libbsd i callId fn dir).slot j).fPcap = some f →
      (j = i ∧ host.dumpOpen (w.log ++ (dir.map IoEvent.mkdirP).toList) fn = some f) ∨
        (j ≠ i ∧ (w.slot j).fPcap = some f) := by
    intro j f hf
    rw [hslot] at hf
    split at hf
    · exact Or.inl ⟨‹_›, hf⟩
    · exact Or.inr ⟨‹_›, hf⟩
  refine ⟨⟨fun f => ?_, fun j k f hj hk => ?_, ?_⟩, htable, fun f hf => ?_⟩
  · rw [Usage.Live, hopened, hclosed, List.mem_append, Option.mem_toList]
    constructor
    · rintro ⟨ho | hf, hc⟩
      · obtain ⟨j, -, hf⟩ := (h.live_iff f).mp ⟨ho, hc⟩
        have hf' : ((w.openFile host libbsd i callId fn dir).slot j).fPcap = some f := by
          rw [hslot, if_neg (hold j f hf), hf]
        exact ⟨j, htable.used_of_fPcap hf', hf'⟩
      · have hf' : ((w.openFile host libbsd i callId fn dir).slot i).fPcap = some f := by
          rw [hslot, if_pos rfl, hf]
        exact ⟨i, htable.used_of_fPcap hf', hf'⟩
    · rintro ⟨j, -, hf⟩
      rcases hnew j f hf with ⟨-, hf⟩ | ⟨-, hf⟩
      · exact ⟨Or.inr hf, fun hc => hfresh f hf (h.opened_of_closed f hc)⟩
      · exact ⟨Or.inl (h.live hf).1, (h.live hf).2⟩
  · rcases hnew j f hj with ⟨hji, hoj⟩ | ⟨-, hoj⟩ <;> rcases hnew k f hk with ⟨hki, hok⟩ | ⟨-, hok⟩
    · exact hji.trans hki.symm
    · exact absurd (h.live hok).1 (hfresh f hoj)
    · exact absurd (h.live hoj).1 (hfresh f hok)
    · exact h.inj j k f hoj hok
  · rw [hclosed]
    exact h.closed_nodup
  · rw [hclosed] at hf
    rw [hopened, List.mem_append]
    exact Or.inl (h.opened_of_closed f hf)

/-- Every legal operation keeps the ownership. -/
theorem Owns.next (h : Owns w) {op : WorldOp} (hop : (world host libbsd).allowed w op) :
    Owns ((world host libbsd).next w op) := by
  rcases op.pass_or_open_or_other with
    ⟨currtime, rfl⟩ | ⟨i, callId, fn, dir, rfl⟩ | ⟨hpass, hopen⟩
  · exact h.cleanup currtime
  · exact h.openFile hop.1 hop.2.1 callId fn dir
  · obtain ⟨events, hlog, hquiet, -⟩ := log_next host libbsd hpass hopen
    exact h.of_quiet (tableInv_next hop h.tableInv) hlog hquiet
      (fPcap_next hop h.tableInv hpass hopen)

lemma owns_start (o : Options) : Owns o.start.world := by
  have hnone : ∀ i f, (o.start.world.slot i).fPcap ≠ some f := by
    intro i f hf
    have hzero : o.start.world.slot i = CalltableElement.zero := Calltable.slot_create _ _ i
    simp [hzero, CalltableElement.zero] at hf
  refine ⟨⟨fun f => ?_, fun i j f hi => absurd hi (hnone i f), List.nodup_nil⟩,
    tableInv_start o, fun f hf => absurd hf (by simp [Options.start])⟩
  constructor
  · rintro ⟨ho, -⟩
    simp [Options.start] at ho
  · rintro ⟨i, -, hf⟩
    exact absurd hf (hnone i f)

/-! ### Runs of the capture loop -/

lemma Owns.afterPass {s : State} (h : Owns s.world) (a : Input) : Owns (afterPass s a).world :=
  afterPass_invariant h fun currtime _ => h.cleanup currtime

lemma Owns.loop {s : State} (h : Owns s.world) (a : Input) :
    Owns ((loop o host).next s a).world :=
  next_invariant (fun _ hw => hw.tableInv) (fun _ _ _ hop _ hw => hw.next hop) (h.afterPass a)

lemma owns_run (o : Options) (host : Host) (inputs : List Input) :
    Owns ((loop o host).run o.start inputs).world :=
  Machine.run_invariant (P := fun s : State => Owns s.world) (fun _ a h => h.loop a)
    (owns_start o) inputs

lemma Owns.dispatch {s : State} (h : Owns s.world) (host : Host) (p : Packet) :
    Owns (dispatch o host p s).world :=
  dispatch_invariant (fun _ hw => hw.tableInv) (fun _ _ hop _ hw => hw.next hop) h

/-- The operations of a packet leave the dumper of an element where it is. -/
lemma fPcap_kept {p : Packet} {op : WorldOp} (hop : (world host libbsd).allowed w op)
    (hp : op.OfPacket p) (hw : w.ct.TableInv) {i : ℕ} {f : Handle}
    (hf : (w.slot i).fPcap = some f) :
    (((world host libbsd).next w op).slot i).fPcap = some f := by
  -- an element with a file is in use, and is given no second file
  rcases slot_next hop hw i with hs | ⟨T, rfl, -⟩ | ⟨_, _, _, _, -, rfl, -⟩ | ⟨_, _, _, rfl, -⟩
  · exact hs.fPcap.trans hf
  · exact hp.elim
  · exact absurd (hw.used_of_fPcap hf) (by rw [w.ct.isUsed_addIdx]; decide)
  · exact absurd hf (by rw [hop.2.1]; simp)

/-- After its pass an input leaves the dumper of an element where it is. -/
lemma fPcap_of_afterPass {s : State} {a : Input} (h : (afterPass s a).world.ct.TableInv) {i : ℕ}
    {f : Handle} (hf : ((afterPass s a).world.slot i).fPcap = some f) :
    (((PcapSipDump.loop o host).next s a).world.slot i).fPcap = some f := by
  refine (next_invariant (P := fun w : World => w.ct.TableInv ∧ (w.slot i).fPcap = some f)
    (fun _ hw => hw.1) ?_ ⟨h, hf⟩).2
  rintro w op p hop hp ⟨hw, hfw⟩
  exact ⟨tableInv_next hop hw, fPcap_kept hop hp hw hfw⟩

/-- The calls for an element do not touch the dumper of another one. -/
lemma closeEvents_ne {eraseNonT38 : Bool} {e : CalltableElement} {f : Handle}
    (h : e.fPcap ≠ some f) :
    ∀ event ∈ e.closeEvents eraseNonT38, event ≠ .flush f ∧ event ≠ .close f := by
  intro event he
  rcases hg : e.fPcap with _ | g
  · rw [CalltableElement.closeEvents_none hg] at he
    cases he
  · have hne : g ≠ f := fun hgf => h (hg.trans (congrArg some hgf))
    rw [CalltableElement.closeEvents_some hg] at he
    simp only [List.mem_cons, List.not_mem_nil, or_false] at he
    rcases he with rfl | rfl | rfl
    · simp [hne]
    · simp [hne]
    · rcases e.finishEvent_cases eraseNonT38 with h | h <;> rw [h] <;>
        simp [CalltableElement.triggerEvent]

/-- A pass that frees an element flushes and closes its dumper once, and then unlinks the file
or fires the close triggers for it. -/
lemma doCleanup_finishes (h : Owns w) {currtime : ℤ} {i : ℕ} {f : Handle}
    (hd : w.ct.due currtime (w.slot i)) (hf : (w.slot i).fPcap = some f) :
    ∃ before after, (w.ct.doCleanup currtime).2 = before ++ [.flush f, .close f,
        (w.slot i).finishEvent w.ct.eraseNonT38] ++ after ∧
      ∀ event ∈ before ++ after, event ≠ .flush f ∧ event ≠ .close f := by
  have hi : i < w.ct.table.length := Calltable.lt_length_of_used (Calltable.used_of_due hd)
  have htable : w.ct.table = w.ct.table.take i ++ w.slot i :: w.ct.table.drop (i + 1) := by
    rw [World.slot, Calltable.slot, at_of_lt _ hi, ← List.drop_eq_getElem_cons hi,
      List.take_append_drop]
  have hevents := CalltableElement.closeEvents_some hf w.ct.eraseNonT38
  have hcalls : (w.ct.doCleanup currtime).2 = w.ct.table.flatMap fun e =>
      if w.ct.due currtime e then e.closeEvents w.ct.eraseNonT38 else [] := rfl
  -- every other element has another dumper
  have hother : ∀ j, ∀ hj : j < w.ct.table.length, j ≠ i →
      ∀ event ∈ (if w.ct.due currtime w.ct.table[j] then
        w.ct.table[j].closeEvents w.ct.eraseNonT38 else []),
        event ≠ .flush f ∧ event ≠ .close f := by
    intro j hj hji event he
    have hne : w.ct.table[j].fPcap ≠ some f := by
      intro hfj
      refine hji (h.inj j i f ?_ hf)
      rwa [World.slot, Calltable.slot, at_of_lt _ hj]
    split at he
    · exact closeEvents_ne hne event he
    · simp at he
  rw [htable, List.flatMap_append, List.flatMap_cons, if_pos hd, hevents] at hcalls
  refine ⟨_, _, hcalls.trans (List.append_assoc _ _ _).symm, fun event he => ?_⟩
  rw [List.mem_append, List.mem_flatMap, List.mem_flatMap] at he
  rcases he with ⟨e, he, hevent⟩ | ⟨e, he, hevent⟩
  · obtain ⟨j, hj, rfl⟩ := List.mem_take_iff_getElem.mp he
    exact hother j (by omega) (by omega) event hevent
  · obtain ⟨j, hj, rfl⟩ := List.mem_drop_iff_getElem.mp he
    exact hother (i + 1 + j) (by omega) (by omega) event hevent

/-- **Dumper ownership.**  In every state of the capture loop, also right after a cleanup pass,
the open dumpers are exactly those of the used elements, no dumper is in two elements, and none
has been closed twice.  A dumper stays in its element until a pass zeroes the element, and that
pass flushes and closes it. -/
theorem dumper_ownership (o : Options) (host : Host) (inputs : List Input) :
    let s := (loop o host).run o.start inputs
    OwnsDumpers s.world ∧ ∀ a, OwnsDumpers (afterPass s a).world ∧
      ∀ i f, (s.world.slot i).fPcap = some f →
        (((loop o host).next s a).world.slot i).fPcap = some f ∨
          ∃ currtime, passTime s a = some currtime ∧
            s.world.ct.due currtime (s.world.slot i) ∧
            (afterPass s a).world.slot i = CalltableElement.zero ∧
            ∃ before after, (afterPass s a).world.log =
              s.world.log ++ before ++ [.flush f, .close f] ++ after := by
  intro s
  have hs : Owns s.world := owns_run o host inputs
  refine ⟨hs.toOwnsDumpers, fun a => ⟨(hs.afterPass a).toOwnsDumpers,
    fun i f hf => ?_⟩⟩
  have htable := (hs.afterPass a).tableInv
  by_cases hfreed : ∃ currtime, passTime s a = some currtime ∧
      s.world.ct.due currtime (s.world.slot i)
  · obtain ⟨currtime, hT, hd⟩ := hfreed
    have hworld : (afterPass s a).world = s.world.cleanup currtime := by
      rw [afterPass_world, hT]
    obtain ⟨before, after, hevents, -⟩ := doCleanup_finishes hs hd hf
    refine Or.inr ⟨currtime, hT, hd, ?_, before,
      (s.world.slot i).finishEvent s.world.ct.eraseNonT38 :: after, ?_⟩
    · rw [hworld, World.slot, World.cleanup, Calltable.slot_doCleanup, if_pos hd]
    · rw [hworld, World.cleanup, hevents]
      simp only [List.append_assoc, List.cons_append, List.nil_append]
  · left
    refine fPcap_of_afterPass htable ?_
    rw [afterPass_world]
    rcases hT : passTime s a with _ | currtime
    · exact hf
    · have hd : ¬s.world.ct.due currtime (s.world.slot i) := fun hd => hfreed ⟨currtime, hT, hd⟩
      simp only [World.slot, World.cleanup, Calltable.slot_doCleanup, if_neg hd]
      exact hf

/-- The dumper of a recorded call, and the pass that closes it. -/
theorem dumper_ownership_expiringCall :
    let s := (loop Options.raw Host.numbering).run Options.raw.start
      [.packet (.captured 1000 (invite "x"))]
    (s.world.slot 0).fPcap = some 1 ∧
      pcapFiles.closed (afterPass s (.cleanup 1400)).world.log = [1] ∧
      OwnsDumpers (afterPass s (.cleanup 1400)).world := by
  intro s
  refine ⟨by decide +kernel, by decide +kernel, ?_⟩
  exact ((dumper_ownership Options.raw Host.numbering _).2 (.cleanup 1400)).1

/-! ### A new call in a used slot -/

/-- A world that the capture loop goes through: the one between two inputs, or the one after
the cleanup pass of an input, in which a call of the input is added. -/
def Visits (o : Options) (host : Host) (w : World) : Prop :=
  ∃ inputs, w = ((loop o host).run o.start inputs).world ∨
    ∃ a, w = (afterPass ((loop o host).run o.start inputs) a).world

lemma Visits.owns (h : Visits o host w) : Owns w := by
  obtain ⟨inputs, rfl | ⟨a, rfl⟩⟩ := h
  · exact owns_run o host inputs
  · exact (owns_run o host inputs).afterPass a

/-- The table in which no call has ever used the elements that are unused now. -/
def Calltable.forgetUnused (ct : Calltable) : Calltable :=
  { ct with table := ct.table.map fun e => if e.isUsed then e else CalltableElement.zero }

/-- **Slot reuse leaves no residue.**  In every state of the capture loop the element of a call
that is added is what it would be in a slot that has just been appended; and the table, hence
everything that is computed from it, is the one in which no call has used the unused slots
before. -/
theorem add_leaves_no_residue (o : Options) (host : Host) (w : World) (h : Visits o host w) :
    (∀ callId caller callee time, w.ct.findByCallId callId = none →
      (w.ct.add callId caller callee time).2.1.slot (w.ct.add callId caller callee time).1 =
        CalltableElement.zero.init callId caller callee time) ∧
      w.ct.forgetUnused = w.ct := by
  have hzero : w.ct.UnusedZero := h.owns.tableInv.unusedZero
  constructor
  · intro callId caller callee time _
    have hidx : (w.ct.add callId caller callee time).1 = w.ct.addIdx := rfl
    rw [hidx, Calltable.slot_add, if_pos rfl, hzero _ w.ct.isUsed_addIdx]
  · have hmap : w.ct.table.map (fun e => if e.isUsed then e else CalltableElement.zero) =
        w.ct.table := by
      -- an element that is not in use is the zeroed one already
      refine (List.map_congr_left fun e he => ?_).trans (List.map_id _)
      obtain ⟨i, -, rfl⟩ := exists_at_of_mem CalltableElement.zero he
      by_cases hu : (w.ct.slot i).isUsed
      · exact if_pos hu
      · exact (if_neg hu).trans (hzero i (by simpa using hu)).symm
    rw [Calltable.forgetUnused, hmap]

/-- A call with a file, a flow, the SSRC of its media and a time expires, and its element is given
to another call. -/
theorem add_leaves_no_residue_reused :
    let inputs : List Input :=
      [.packet (.captured 1000 (invite "x")), .packet (.captured 1001 (media 4000 5))]
    let before := ((loop Options.raw Host.numbering).run Options.raw.start inputs).world
    let w := ((loop Options.raw Host.numbering).run Options.raw.start
      (inputs ++ [.cleanup 1400])).world
    ((before.slot 0).isUsed ∧ (before.slot 0).callIdStr = ascii "x" ∧
        (before.slot 0).fPcap = some 1 ∧ (before.slot 0).ipN = 1 ∧ (before.slot 0).port 0 = 4000 ∧
        (before.slot 0).ssrc 0 ≠ 0 ∧ (before.slot 0).lastPacketTime = 1001) ∧
      (w.ct.add (ascii "y") [] [] 1400).1 = 0 ∧
      (w.ct.add (ascii "y") [] [] 1400).2.1.slot (w.ct.add (ascii "y") [] [] 1400).1 =
        CalltableElement.zero.init (ascii "y") [] [] 1400 := by
  intro inputs before w
  have hvisits : Visits Options.raw Host.numbering w := ⟨_, Or.inl rfl⟩
  exact ⟨by decide +kernel, by decide +kernel,
    (add_leaves_no_residue _ _ w hvisits).1 (ascii "y") [] [] 1400 (by decide +kernel)⟩

end PcapSipDump
