import PcapSipDump.Capture.Ownership

/-!
# What is dumped

The calls of `pcap_dump` in the log.  An operation appends what it dumps to what has been dumped
before (`written_next`).
-/

namespace PcapSipDump

open Lib Lib.CString

variable {host : Host} {libbsd : Bool} {w : World}

/-- The arguments of `pcap_dump`. -/
def IoEvent.written : IoEvent → Option (Via × Handle × Record)
  | .dump via f packet => some (via, f, packet)
  | _ => none

/-- Everything that `pcap_dump` has been called with, in order. -/
def World.written (w : World) : List (Via × Handle × Record) := w.log.filterMap IoEvent.written

/-- What an operation dumps. -/
def WorldOp.dumps (w : World) : WorldOp → List (Via × Handle × Record)
  | .rtpDump i packet _ => (w.slot i).fPcap.toList.map fun f => (.rtp i, f, packet)
  | .sipDump i packet _ _ => (w.slot i).fPcap.toList.map fun f => (.sip i, f, packet)
  | .fragment aai packet _ _ => (w.ct.getIpfrag aai).1.toList.map fun f => (.ipfrag aai, f, packet)
  | _ => []

/-- The calls of a pass: flushing and closing dumpers, removing files and close triggers. -/
lemma mem_doCleanup {ct : Calltable} {currtime : ℤ} {e : IoEvent}
    (h : e ∈ (ct.doCleanup currtime).2) :
    (∃ f, e = .flush f ∨ e = .close f) ∨ (∃ path, e = .unlink path) ∨
      ∃ c : CalltableElement, e = c.triggerEvent .close := by
  simp only [Calltable.doCleanup, List.mem_flatMap] at h
  obtain ⟨c, -, he⟩ := h
  split at he
  · rcases hf : c.fPcap with _ | f
    · rw [CalltableElement.closeEvents_none hf] at he
      cases he
    · rw [CalltableElement.closeEvents_some hf] at he
      simp only [List.mem_cons, List.not_mem_nil, or_false] at he
      rcases he with rfl | rfl | rfl
      · exact Or.inl ⟨f, Or.inl rfl⟩
      · exact Or.inl ⟨f, Or.inr rfl⟩
      · rcases c.finishEvent_cases ct.eraseNonT38 with h | h
        · exact Or.inr (Or.inl ⟨_, h⟩)
        · exact Or.inr (Or.inr ⟨c, h⟩)
  · simp at he

/-- What is found in the fragment map; NULL is no file. -/
lemma getIpfrag_fst (ct : Calltable) (k : AddrAddrId) :
    (ct.getIpfrag k).1 = (ct.ipfrags k).join := by
  unfold Calltable.getIpfrag
  rcases ct.ipfrags k with _ | f <;> rfl

namespace World

lemma mem_written {via : Via} {f : Handle} {r : Record} :
    (via, f, r) ∈ w.written ↔ .dump via f r ∈ w.log := by
  simp only [written, List.mem_filterMap]
  constructor
  · rintro ⟨e, he, hw⟩
    cases e with
    | dump via' f' r' =>
      obtain ⟨rfl, rfl, rfl⟩ := Option.some.inj hw
      exact he
    | _ => simp [IoEvent.written] at hw
  · intro h
    exact ⟨_, h, rfl⟩

/-- Calls that are no dumps. -/
lemma written_of_log {w' : World} {events : List IoEvent} (hlog : w'.log = w.log ++ events)
    (hevents : ∀ e ∈ events, e.written = none) : w'.written = w.written := by
  rw [written, hlog, List.filterMap_append, List.filterMap_eq_nil_iff.mpr hevents,
    List.append_nil, written]

@[simp] lemma written_dump (via : Via) (f : Handle) (packet : Record) (flushes : List Bool) :
    (w.dump via f packet flushes).written = w.written ++ [(via, f, packet)] := by
  have hflush : ((flushes.filter id).map fun _ => IoEvent.flush f).filterMap IoEvent.written =
      [] := by
    simp [List.filterMap_eq_nil_iff, IoEvent.written]
  have hdump : (IoEvent.dump via f packet).written = some (via, f, packet) := rfl
  rw [written, dump, emit, List.filterMap_append, List.filterMap_cons_some hdump, hflush]
  rfl

lemma written_cleanup (currtime : ℤ) : (w.cleanup currtime).written = w.written := by
  refine written_of_log rfl fun e he => ?_
  rcases mem_doCleanup he with ⟨f, rfl | rfl⟩ | ⟨path, rfl⟩ | ⟨c, rfl⟩ <;> rfl

lemma written_openFile (i : ℕ) (callId fn : Bytes) (dir : Option Bytes) :
    (w.openFile host libbsd i callId fn dir).written = w.written := by
  refine written_of_log (w.log_openFile i callId fn dir) fun e he => ?_
  rcases List.mem_append.mp he with he | he
  · obtain ⟨d, -, rfl⟩ := Option.map_eq_some_iff.mp (Option.mem_toList.mp he)
    rfl
  · obtain rfl := List.mem_singleton.mp he
    rfl

lemma written_add (callId caller callee : Bytes) (time : ℤ) :
    (w.add callId caller callee time).2.written = w.written := by
  refine written_of_log rfl fun e he => ?_
  obtain rfl := List.mem_singleton.mp he
  rfl

lemma written_rtpDump (i : ℕ) (packet : Record) (b : Bool) :
    (w.rtpDump i packet b).written =
      w.written ++ (w.slot i).fPcap.toList.map fun f => (.rtp i, f, packet) := by
  unfold rtpDump
  rcases (w.slot i).fPcap with _ | f
  · exact (List.append_nil _).symm
  · exact written_dump _ _ _ _

lemma written_sipDump (i : ℕ) (packet : Record) (b c : Bool) :
    (w.sipDump i packet b c).written =
      w.written ++ (w.slot i).fPcap.toList.map fun f => (.sip i, f, packet) := by
  unfold sipDump
  rcases (w.slot i).fPcap with _ | f
  · exact (List.append_nil _).symm
  · exact written_dump _ _ _ _

lemma written_fragment (aai : AddrAddrId) (packet : Record) (last b : Bool) :
    (w.fragment aai packet last b).written =
      w.written ++ (w.ct.getIpfrag aai).1.toList.map fun f => (.ipfrag aai, f, packet) := by
  unfold fragment
  rcases w.ct.getIpfrag aai with ⟨_ | f, ct⟩
  · exact (List.append_nil _).symm
  · cases last <;> exact written_dump _ _ _ _

end World

/-- **What an operation dumps** is appended to what has been dumped before. -/
theorem written_next (host : Host) (libbsd : Bool) (op : WorldOp) :
    ((world host libbsd).next w op).written = w.written ++ op.dumps w := by
  cases op with
  | cleanup currtime => exact (World.written_cleanup currtime).trans (List.append_nil _).symm
  | add callId caller callee time =>
    exact (World.written_add _ _ _ _).trans (List.append_nil _).symm
  | openFile i callId fn dir =>
    exact (World.written_openFile _ _ _ _).trans (List.append_nil _).symm
  | rtpDump i packet b => exact World.written_rtpDump i packet b
  | sipDump i packet b c => exact World.written_sipDump i packet b c
  | fragment aai packet last b => exact World.written_fragment aai packet last b
  | _ => exact (List.append_nil _).symm

/-- **Where a new dump comes from.**  A new dump in the log is that of a packet into the file of an
element or of the fragment map. -/
theorem dump_next (host : Host) (libbsd : Bool) {op : WorldOp} {via : Via} {f : Handle} {r : Record}
    (h : .dump via f r ∈ ((world host libbsd).next w op).log) :
    .dump via f r ∈ w.log ∨
      (∃ i b, op = .rtpDump i r b ∧ via = .rtp i ∧ (w.slot i).fPcap = some f) ∨
      (∃ i b c, op = .sipDump i r b c ∧ via = .sip i ∧ (w.slot i).fPcap = some f) ∨
      ∃ aai l b, op = .fragment aai r l b ∧ via = .ipfrag aai ∧
        w.ct.ipfrags aai = some (some f) := by
  rw [← World.mem_written, written_next] at h
  refine (List.mem_append.mp h).imp World.mem_written.mp fun hd => ?_
  cases op with
  | rtpDump i packet b =>
    obtain ⟨g, hg, heq⟩ := List.mem_map.mp hd
    obtain ⟨rfl, rfl, rfl⟩ : Via.rtp i = via ∧ g = f ∧ packet = r := by simpa using heq
    exact Or.inl ⟨i, b, rfl, rfl, Option.mem_toList.mp hg⟩
  | sipDump i packet b c =>
    obtain ⟨g, hg, heq⟩ := List.mem_map.mp hd
    obtain ⟨rfl, rfl, rfl⟩ : Via.sip i = via ∧ g = f ∧ packet = r := by simpa using heq
    exact Or.inr (Or.inl ⟨i, b, c, rfl, rfl, Option.mem_toList.mp hg⟩)
  | fragment aai packet last b =>
    obtain ⟨g, hg, heq⟩ := List.mem_map.mp hd
    obtain ⟨rfl, rfl, rfl⟩ : Via.ipfrag aai = via ∧ g = f ∧ packet = r := by simpa using heq
    rw [getIpfrag_fst, Option.mem_toList] at hg
    exact Or.inr (Or.inr ⟨aai, last, b, rfl, rfl, Option.join_eq_some_iff.mp hg⟩)
  | _ => exact absurd hd List.not_mem_nil

end PcapSipDump
