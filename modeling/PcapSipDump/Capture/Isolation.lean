import PcapSipDump.CallTable.CallIdIndex
import PcapSipDump.CallTable.FlowSearch
import PcapSipDump.Capture.Branch

/-!
# Which file a SIP message goes to

The lookups for media come before the test for SIP.  So a SIP message from or to a registered
address and port goes to the file of the call that has registered it, whatever its Call-ID is
(`sip_isolation_false`).  Any other SIP message goes, once at most, to the file of the call with
its Call-ID (`sip_isolation`): the invariant `FilesOfCalls` says that the file in an element was
opened for the call in it.
-/

namespace PcapSipDump

open Lib Lib.CString

/-- The dumper that `pcap_dump` is called with. -/
def IoEvent.dumper : IoEvent → Option Handle
  | .dump _ f _ => some f
  | _ => none

/-- The dumpers that `pcap_dump` has been called with, in order. -/
def World.dumps (w : World) : List Handle := w.log.filterMap IoEvent.dumper

/-- The file was opened for a call with this Call-ID, and never for one with another. -/
def World.OpenedFor (w : World) (f : Handle) (callId : Bytes) : Prop :=
  (∃ fn, .dumpOpen callId fn (some f) ∈ w.log) ∧
    ∀ callId' fn, .dumpOpen callId' fn (some f) ∈ w.log → callId' = callId

/-- A UDP packet, over IPv4 or IPv6, that is no fragment. -/
def isUnfragmentedUdp (m : Bytes) (ip : ℕ) : Bool :=
  (ipVersion m ip = 4 && protocol m ip = ipprotoUdp && fragOff m ip &&& 0x3fff = 0) ||
    (ipVersion m ip = 6 && nexthdr m ip = ipprotoUdp)

variable {o : Options} {host : Host} {libbsd : Bool} {w : World} {p : Packet}

/-! ### The file in an element was opened for its call -/

/-- A handle is opened for one Call-ID only, and the call in the element with the handle has the
length and the first 32 bytes of this Call-ID. -/
structure FilesOfCalls (w : World) : Prop where
  tableInv : w.ct.TableInv
  opened : ∀ i f, (w.slot i).fPcap = some f →
    ∃ callId fn, .dumpOpen callId fn (some f) ∈ w.log ∧ (w.slot i).key = keyOf callId
  once : ∀ f callId callId' fn fn', .dumpOpen callId fn (some f) ∈ w.log →
    .dumpOpen callId' fn' (some f) ∈ w.log → callId' = callId

/-- A new opened file in the log is that of the operation. -/
lemma dumpOpen_next {op : WorldOp} {callId fn : Bytes} {f : Handle}
    (h : .dumpOpen callId fn (some f) ∈ ((world host libbsd).next w op).log) :
    .dumpOpen callId fn (some f) ∈ w.log ∨
      ∃ i dir, op = .openFile i callId fn dir ∧
        host.dumpOpen (w.log ++ (dir.map IoEvent.mkdirP).toList) fn = some f := by
  rcases op.pass_or_open_or_other with
    ⟨currtime, rfl⟩ | ⟨i, callId', fn', dir, rfl⟩ | ⟨hpass, hopen⟩
  · refine Or.inl ((List.mem_append.mp h).resolve_right fun hnew => ?_)
    have hopened : f ∈ pcapFiles.opened (w.ct.doCleanup currtime).2 :=
      pcapFiles.mem_opened.mpr ⟨_, hnew, rfl⟩
    rw [opened_doCleanup] at hopened
    exact absurd hopened List.not_mem_nil
  · simp only [world, World.log_openFile, List.mem_append, List.mem_singleton] at h
    rcases h with h | h | h
    · exact Or.inl h
    · obtain ⟨d, -, hd⟩ := Option.map_eq_some_iff.mp (Option.mem_toList.mp h)
      exact absurd hd (by simp)
    · obtain ⟨rfl, rfl, hf⟩ := IoEvent.dumpOpen.inj h
      exact Or.inr ⟨i, dir, rfl, hf.symm⟩
  · obtain ⟨events, hlog, hquiet, -⟩ := log_next (w := w) host libbsd hpass hopen
    rw [hlog] at h
    refine Or.inl ((List.mem_append.mp h).resolve_right fun hnew => ?_)
    exact absurd (hquiet _ hnew).1 (by simp [pcapFiles])

/-- What holds of an element and the opening of its file when the file is opened, and is not
changed while the element is the same call, is kept by every legal operation. -/
lemma opened_next {R : Bytes → Bytes → CalltableElement → Prop} (hw : w.ct.TableInv) {op : WorldOp}
    (hop : (world host libbsd).allowed w op)
    (hsame : ∀ callId fn e e', SameCall e e' → R callId fn e → R callId fn e')
    (hopen : ∀ i callId fn dir f, op = .openFile i callId fn dir → R callId fn
      ((ElementWrite.file f (strlcpy libbsd (w.slot i).fnPcap fn)).apply (w.slot i)))
    (h : ∀ i f, (w.slot i).fPcap = some f →
      ∃ callId fn, .dumpOpen callId fn (some f) ∈ w.log ∧ R callId fn (w.slot i)) :
    ∀ i f, (((world host libbsd).next w op).slot i).fPcap = some f →
      ∃ callId fn, .dumpOpen callId fn (some f) ∈ ((world host libbsd).next w op).log ∧
        R callId fn (((world host libbsd).next w op).slot i) := by
  intro i f hf
  obtain ⟨events, hlog⟩ := log_grows (w := w) host libbsd op
  rcases slot_next hop hw i with hs | ⟨T, -, -, hs⟩ | ⟨_, _, _, _, -, hi, hs⟩ |
    ⟨callId, fn, dir, rfl, hs⟩
  · rw [hs.fPcap] at hf
    obtain ⟨callId, fn, hd, hR⟩ := h i f hf
    refine ⟨callId, fn, ?_, hsame callId fn _ _ hs hR⟩
    rw [hlog]
    exact List.mem_append_left _ hd
  · rw [hs] at hf
    simp [CalltableElement.zero] at hf
  · -- a new call has no file yet
    have hzero : w.slot i = CalltableElement.zero := by
      rw [hi]
      exact hw.unusedZero _ w.ct.isUsed_addIdx
    rw [hs, hzero] at hf
    simp [CalltableElement.init, CalltableElement.zero] at hf
  · have hfile : host.dumpOpen (w.log ++ (dir.map IoEvent.mkdirP).toList) fn = some f := by
      rw [hs] at hf
      exact hf
    refine ⟨callId, fn, ?_, ?_⟩
    · refine List.mem_append_right _ (List.mem_singleton.mpr ?_)
      rw [hfile]
    · rw [hs]
      exact hopen i callId fn dir _ rfl

/-- A handle is opened once, so what it has been opened with is unique. -/
lemma openedOnce_next {α : Type} {g : Bytes → Bytes → α} {op : WorldOp}
    (h : ∀ f callId callId' fn fn', .dumpOpen callId fn (some f) ∈ w.log →
      .dumpOpen callId' fn' (some f) ∈ w.log → g callId' fn' = g callId fn) :
    ∀ f callId callId' fn fn',
      .dumpOpen callId fn (some f) ∈ ((world host libbsd).next w op).log →
      .dumpOpen callId' fn' (some f) ∈ ((world host libbsd).next w op).log →
      g callId' fn' = g callId fn := by
  intro f callId callId' fn fn' hd hd'
  rcases dumpOpen_next hd with hold | ⟨i, dir, rfl, hfile⟩ <;>
    rcases dumpOpen_next hd' with hold' | ⟨i', dir', hop', hfile'⟩
  · exact h f callId callId' fn fn' hold hold'
  · -- a handle that is returned again would not be fresh
    exact absurd (pcapFiles.mem_opened.mpr ⟨_, hold, rfl⟩) (host.not_mem_opened hfile')
  · exact absurd (pcapFiles.mem_opened.mpr ⟨_, hold', rfl⟩) (host.not_mem_opened hfile)
  · injection hop' with _ hid hfn
    rw [hid, hfn]

/-- Every legal operation keeps the files with their calls. -/
lemma FilesOfCalls.next (h : FilesOfCalls w) {op : WorldOp}
    (hop : (world host libbsd).allowed w op) : FilesOfCalls ((world host libbsd).next w op) := by
  refine ⟨tableInv_next hop h.tableInv, ?_, openedOnce_next (g := fun callId _ => callId) h.once⟩
  refine opened_next (R := fun callId _ e => e.key = keyOf callId) h.tableInv hop ?_ ?_ h.opened
  · intro callId _ e e' hs hkey
    exact hs.key.trans hkey
  · rintro i callId fn dir f rfl
    rw [ElementWrite.key_apply]
    exact hop.2.2

lemma filesOfCalls_start (o : Options) : FilesOfCalls o.start.world := by
  refine ⟨tableInv_start o, fun i f hf => ?_, fun f _ _ _ _ hd => ?_⟩
  · have hzero : o.start.world.slot i = CalltableElement.zero := Calltable.slot_create _ _ i
    simp [hzero, CalltableElement.zero] at hf
  · exact absurd hd List.not_mem_nil

lemma FilesOfCalls.loop {s : State} (h : FilesOfCalls s.world) (a : Input) :
    FilesOfCalls ((PcapSipDump.loop o host).next s a).world := by
  have hpass : ∀ currtime, FilesOfCalls (s.world.cleanup currtime) := fun currtime =>
    h.next (show (world host o.libbsd).allowed s.world (.cleanup currtime) from trivial)
  exact next_invariant (fun _ hw => hw.tableInv) (fun _ _ _ hop _ hw => hw.next hop)
    (afterPass_invariant h fun currtime _ => hpass currtime)

/-- In every state of the capture loop the files are those of their calls. -/
lemma filesOfCalls_run (o : Options) (host : Host) (inputs : List Input) :
    FilesOfCalls ((loop o host).run o.start inputs).world :=
  Machine.run_invariant (P := fun s : State => FilesOfCalls s.world) (fun _ a h => h.loop a)
    (filesOfCalls_start o) inputs

/-- A Call-ID that fits into the element is that of the file. -/
lemma FilesOfCalls.openedFor (h : FilesOfCalls w) {i : ℕ} {f : Handle} {callId : Bytes}
    (hf : (w.slot i).fPcap = some f) (hkey : (w.slot i).key = keyOf callId)
    (hlen : callId.length ≤ 32) : w.OpenedFor f callId := by
  obtain ⟨callId', fn, hd, hkey'⟩ := h.opened i f hf
  obtain rfl : callId' = callId := eq_of_keyOf_eq hlen (hkey'.symm.trans hkey)
  exact ⟨⟨fn, hd⟩, fun callId'' fn' hd' => h.once f callId' callId'' fn fn' hd hd'⟩

/-! ### What a packet dumps -/

/-- The dumpers are those of what has been written. -/
lemma World.dumps_eq (w : World) : w.dumps = w.written.map fun d => d.2.1 := by
  rw [dumps, written, List.map_filterMap]
  refine List.filterMap_congr fun e _ => ?_
  cases e with
  | _ => rfl

/-- A packet that is no fragment is no later fragment. -/
lemma laterFragment_of_unfragmented {ip : ℕ} (hip : headerIp o.dlt p.mem = some ip)
    (hudp : isUnfragmentedUdp p.mem ip) : laterFragment o p = none := by
  have h4 : isLaterFragment4 p.mem ip = false := by
    simp only [isUnfragmentedUdp, isLaterFragment4, Bool.or_eq_true, Bool.and_eq_true,
      decide_eq_true_eq, Bool.and_eq_false_iff, decide_eq_false_iff_not] at hudp ⊢
    rcases hudp with ⟨-, hoff⟩ | ⟨hv, -⟩
    · right
      intro hpos
      have hmask : fragOff p.mem ip &&& 0x1fff = (fragOff p.mem ip &&& 0x3fff) &&& 0x1fff := by
        rw [UInt16.and_assoc]
        rfl
      rw [hmask, hoff] at hpos
      exact absurd hpos (by decide)
    · left
      rw [hv]
      decide
  have h6 : isLaterFragment6 p.mem ip = false := by
    simp only [isUnfragmentedUdp, isLaterFragment6, isFragment6, Bool.or_eq_true,
      Bool.and_eq_true, decide_eq_true_eq, Bool.and_eq_false_iff, decide_eq_false_iff_not] at hudp ⊢
    rcases hudp with ⟨⟨hv, -⟩, -⟩ | ⟨-, hn⟩
    · rw [hv]
      exact Or.inl (Or.inl (Or.inl (by decide)))
    · rw [hn]
      exact Or.inl (Or.inl (Or.inr (by decide)))
  exact (laterFragment_eq_none_iff hip).mpr ⟨h4, h6⟩

/-- The branch of a packet that is no fragment and has the start line of a SIP message. -/
lemma branch_of_unfragmented {ip : ℕ} (hip : headerIp o.dlt p.mem = some ip)
    (hudp : isUnfragmentedUdp p.mem ip) {method : Bytes}
    (hsip : sipMethod (p.mem.drop (dataPos p.mem ip)) = some method) (w : World) :
    branch o p w = .skip ∨ (∃ g, (rtpLookup o p.mem ip w).1 = some g ∧ branch o p w = .rtp ip g) ∨
      branch o p w = .sip ip (readSip o p.terminate (dataPos p.mem ip) method) := by
  simp only [branch, laterFragment_of_unfragmented hip hudp, hip, admittedBranch, hsip]
  split
  · rcases (rtpLookup o p.mem ip w).1 with _ | g
    · exact Or.inr (Or.inr rfl)
    · exact Or.inr (Or.inl ⟨g, rfl, rfl⟩)
  · exact Or.inl rfl

/-- **What a SIP message dumps**: nothing, or itself into one file.  That file is the one of the
flow that the lookups have found, and if they have found none, that of the message's call. -/
lemma dispatch_dumps {ip : ℕ} {s : State} (hw : s.world.ct.TableInv)
    (hip : headerIp o.dlt p.mem = some ip) (hudp : isUnfragmentedUdp p.mem ip)
    {method callId : Bytes} (hsip : sipMethod (p.mem.drop (dataPos p.mem ip)) = some method)
    (hid : (readSip o p.terminate (dataPos p.mem ip) method).callId = some callId) :
    ∃ file : Option Handle,
      (dispatch o host p s).world.dumps = s.world.dumps ++ file.toList ∧
        ∀ f, file = some f →
          (∀ g, (rtpLookup o p.mem ip s.world).1 = some g →
            (s.world.slot g.1).fPcap = some f) ∧
          ((rtpLookup o p.mem ip s.world).1 = none →
            ∃ i, ((dispatch o host p s).world.slot i).isUsed ∧
              ((dispatch o host p s).world.slot i).key = keyOf callId ∧
              ((dispatch o host p s).world.slot i).fPcap = some f) := by
  have hdumps : (dispatch o host p s).world.dumps = s.world.dumps ++
      ((branch o p s.world).dumps o host p s).map fun d => d.2.1 := by
    rw [World.dumps_eq, written_dispatch o host p hw, List.map_append, ← World.dumps_eq]
  have hfile : ∀ (via : Via) (r : Record) (file : Option Handle),
      (file.toList.map fun f => (via, f, r)).map (fun d => d.2.1) = file.toList := by
    intro via r file
    rw [List.map_map]
    exact List.map_id _
  rcases branch_of_unfragmented hip hudp hsip s.world with hb | ⟨g, hg, hb⟩ | hb
  · -- too short a packet for its headers
    refine ⟨none, ?_, by simp⟩
    rw [hdumps, hb]
    rfl
  · -- a flow is found, and the test for SIP is not made
    rw [hb, Branch.dumps] at hdumps
    split at hdumps
    · rw [hfile] at hdumps
      refine ⟨(s.world.slot g.1).fPcap, hdumps, fun f hf => ⟨?_, fun hnone => ?_⟩⟩
      · intro g' hg'
        obtain rfl : g = g' := Option.some.inj (hg.symm.trans hg')
        exact hf
      · exact absurd (hg.symm.trans hnone) (by simp)
    · exact ⟨none, hdumps, by simp⟩
  · -- neither lookup finds a flow: the SIP branch
    obtain ⟨-, -, -, hlookup, -⟩ := of_branch_sip hb
    have hkey := fun i hi => key_findOrAdd (i := i) o host p.ts hw hid hi
    rcases heq : findOrAdd o host (readSip o p.terminate (dataPos p.mem ip) method) p.ts s with
      ⟨_ | i, t⟩
    · refine ⟨none, ?_, by simp⟩
      rw [hdumps, hb, Branch.dumps, heq]
      rfl
    · rw [hb, Branch.dumps, heq, hfile] at hdumps
      rw [heq] at hkey
      obtain ⟨hu, hk⟩ := hkey i rfl
      have hsame := sameCall_dispatch hw hb heq i
      refine ⟨(t.world.slot i).fPcap, hdumps, fun f hf => ⟨?_, fun _ => ⟨i, ?_, ?_, ?_⟩⟩⟩
      · rw [hlookup]
        simp
      · exact hsame.isUsed.trans hu
      · exact hsame.key.trans hk
      · exact hsame.fPcap.trans hf

/-- **Which file a SIP message goes to.**  In every run of the capture loop a SIP message in a UDP
packet that is no fragment is dumped once at most.  When the lookups find a flow, the flow is
registered with the message's destination or source, and the message goes to the file of that
call only.  Otherwise it goes only to the file of the call with its Call-ID, a file that was
opened for this Call-ID and no other. -/
theorem sip_isolation (o : Options) (host : Host) (inputs : List Input) (p : Packet) (ip : ℕ)
    (hip : headerIp o.dlt p.mem = some ip) (hudp : isUnfragmentedUdp p.mem ip)
    (method callId : Bytes)
    (hsip : sipMethod (p.mem.drop (dataPos p.mem ip)) = some method)
    (hid : (readSip o p.terminate (dataPos p.mem ip) method).callId = some callId)
    (hlen : callId.length ≤ 32) :
    let s := (loop o host).run o.start inputs
    let w := (afterPass s (.packet p)).world
    let w' := ((loop o host).next s (.packet p)).world
    ∃ file : Option Handle, w'.dumps = s.world.dumps ++ file.toList ∧ ∀ f, file = some f →
      (∀ g, (rtpLookup o p.mem ip w).1 = some g → (w.slot g.1).fPcap = some f ∧
        ∃ addr port, ((addr, port) = dstPair o p.mem ip ∨ (addr, port) = srcPair o p.mem ip) ∧
          w.ct.HasFlow addr port g) ∧
      ((rtpLookup o p.mem ip w).1 = none → w'.OpenedFor f callId ∧
        ∃ i, w'.ct.findByCallId callId = some i ∧ (w'.slot i).fPcap = some f) := by
  intro s w w'
  have hs : FilesOfCalls s.world := filesOfCalls_run o host inputs
  have hw' : FilesOfCalls w' := hs.loop (.packet p)
  have hw : w.ct.TableInv :=
    afterPass_invariant (P := fun v : World => v.ct.TableInv) hs.tableInv
      fun T _ => hs.tableInv.doCleanup T
  have hpass : w.dumps = s.world.dumps := by
    rw [World.dumps_eq, written_afterPass, ← World.dumps_eq]
  obtain ⟨file, hdumps, hfile⟩ := @dispatch_dumps o host p ip (afterPass s (.packet p)) hw hip hudp
    method callId hsip hid
  refine ⟨file, hdumps.trans (by rw [← hpass]), fun f hf => ?_⟩
  obtain ⟨hflow, hcall⟩ := hfile f hf
  constructor
  · intro g hg
    refine ⟨hflow g hg, ?_⟩
    rcases rtpLookup_cases o p.mem ip w with he | ⟨g', addr, port, hpair, hfound, he⟩
    · rw [he] at hg
      exact absurd hg (by simp)
    · rw [he] at hg
      obtain rfl : g' = g := Option.some.inj hg
      exact ⟨addr, port, hpair, (Calltable.findFlow_eq_some_iff.mp hfound).1⟩
  · intro hnone
    obtain ⟨i, hu, hkey, hi⟩ := hcall hnone
    exact ⟨hw'.openedFor hi hkey hlen, i,
      hw'.tableInv.findByCallId_eq_some_iff.mpr ⟨hu, hkey⟩, hi⟩

/-- Two calls with media elsewhere: the second INVITE goes to a file of its own. -/
theorem sip_isolation_twoCalls :
    let s := (loop Options.raw Host.numbering).run Options.raw.start
      [.packet (.captured 1000 (invite "y"))]
    let second : Packet := .captured 1001 (invite "x")
    let s' := (loop Options.raw Host.numbering).next s (.packet second)
    s.world.dumps = [1] ∧ s'.world.dumps = [1, 2] ∧ s'.world.OpenedFor 2 (ascii "x") := by
  intro s second s'
  have hold : s.world.dumps = [1] := by decide +kernel
  have hdumps : s'.world.dumps = [1, 2] := by decide +kernel
  have hlookup : (rtpLookup Options.raw second.mem 0 (afterPass s (.packet second)).world).1 =
      none := by decide +kernel
  refine ⟨hold, hdumps, ?_⟩
  obtain ⟨file, hnew, hfile⟩ := sip_isolation Options.raw Host.numbering
    [.packet (.captured 1000 (invite "y"))] second 0 (by decide +kernel) (by decide +kernel)
    (ascii "INVITE") (ascii "x") (by decide +kernel) (by decide +kernel) (by decide)
  have hfile2 : file = some 2 := by
    have heq : [1, 2] = [1] ++ file.toList := by
      rw [← hdumps, ← hold]
      exact hnew
    rcases file with _ | f
    · simp at heq
    · simpa using heq.symm
  exact ((hfile 2 hfile2).2 hlookup).1

/-- Call `a` announces media at 10.0.0.2, port 5060, and then the INVITE of call `v` is sent there:
it goes to the file that was opened for `a`. -/
theorem sip_isolation_false :
    let first : Packet := .captured 1000 (ipv4Udp 1 0 [10, 0, 0, 9] [10, 0, 0, 2] 5060 5060
      (sipRequest "INVITE" "a" (sdpBody "10.0.0.2" "5060")))
    let second : Packet := .captured 1001 (invite "v")
    let s := (loop Options.raw Host.numbering).run Options.raw.start
      [.packet first, .packet second]
    Options.raw.optRtpsave ≠ .none ∧ headerIp Options.raw.dlt second.mem = some 0 ∧
      isUnfragmentedUdp second.mem 0 ∧
      sipMethod (second.mem.drop (dataPos second.mem 0)) = some (ascii "INVITE") ∧
      (readSip Options.raw second.terminate (dataPos second.mem 0) (ascii "INVITE")).callId =
        some (ascii "v") ∧
      .dumpOpen (ascii "a") (ascii "a.pcap") (some 1) ∈ s.world.log ∧
      .dump (.rtp 0) 1 second.record ∈ s.world.log := by
  decide +kernel

end PcapSipDump
