import PcapSipDump.Capture.Events
import PcapSipDump.Lib.BufferedLog

/-!
# When what is recorded is on disk

`pcap_dump` writes into a buffer, and `pcap_dump_flush` writes the buffer out.  With `-U` nothing
is ever left in a buffer between two inputs; without it a BYE empties the buffer of its call's file;
and in any case the buffer is empty when the file is closed (`recorded_data_flushed`).  Apart from
this `-U` changes nothing: the runs with and without it go through the same tables and make the same
calls but for the flushes (`packetbuffered_only_flushes`).
-/

namespace PcapSipDump

open Lib Lib.CString

variable {o : Options} {host : Host} {w v : World} {p : Packet} {s t : State} {a : Input}

/-- The dumpers that the calls write to, flush and close. -/
def pcapBuffers : Buffering IoEvent Handle where
  writes
    | .dump _ f _ => some f
    | _ => none
  flushes
    | .flush f => some f
    | _ => none
  closes
    | .close f => some f
    | _ => none

/-! ### The calls of an input -/

/-- A dump that is flushed leaves nothing pending. -/
lemma settled_dumpCalls (via : Via) (f : Handle) (packet : Record) {flushes : List Bool}
    (h : true ∈ flushes) : pcapBuffers.Settled (dumpCalls via f packet flushes) := by
  intro g hg
  rcases hg with ⟨hw, hno⟩ | hg
  · obtain rfl : f = g := Option.some.inj hw
    exact hno (.flush f) (List.mem_map.mpr ⟨true, List.mem_filter.mpr ⟨h, rfl⟩, rfl⟩) rfl
  · refine Buffering.settled_of_forall (fun e he => ?_) g hg
    obtain ⟨_, -, rfl⟩ := List.mem_map.mp he
    rfl

lemma closes_dumpCalls {via : Via} {f : Handle} {packet : Record} {flushes : List Bool} :
    ∀ e ∈ dumpCalls via f packet flushes, pcapBuffers.closes e = none := by
  intro e he
  rcases List.mem_cons.mp he with rfl | he
  · rfl
  · obtain ⟨_, -, rfl⟩ := List.mem_map.mp he
    rfl

/-- Finding or adding a call writes and closes nothing. -/
lemma quiet_findOrAddCalls {msg : SipMessage} {ts : ℤ} : ∀ e ∈ findOrAddCalls o host msg ts s,
    pcapBuffers.writes e = none ∧ pcapBuffers.closes e = none := by
  intro e he
  unfold findOrAddCalls at he
  split at he
  · exact absurd he List.not_mem_nil
  split at he
  · exact absurd he List.not_mem_nil
  split at he
  · rcases List.mem_append.mp he with he | he
    · rw [List.mem_singleton.mp he]
      exact ⟨rfl, rfl⟩
    unfold newCallCalls at he
    split at he
    · rcases List.mem_append.mp he with he | he
      · obtain ⟨_, -, rfl⟩ := Option.map_eq_some_iff.mp (Option.mem_toList.mp he)
        exact ⟨rfl, rfl⟩
      · rw [List.mem_singleton.mp he]
        exact ⟨rfl, rfl⟩
    · exact absurd he List.not_mem_nil
  · exact absurd he List.not_mem_nil

lemma writes_passCalls : ∀ e ∈ passCalls s a, pcapBuffers.writes e = none := by
  intro e he
  unfold passCalls at he
  split at he
  · exact absurd he List.not_mem_nil
  · rcases mem_doCleanup he with ⟨g, rfl | rfl⟩ | ⟨path, rfl⟩ | ⟨c, rfl⟩ <;> rfl

/-- What holds of no calls, and of the calls for any dumped packet, holds of those for a file that
may be none. -/
lemma flatMap_toList {P : List IoEvent → Prop} (hnil : P []) {calls : Handle → List IoEvent}
    (h : ∀ f, P (calls f)) (file : Option Handle) : P (file.toList.flatMap calls) := by
  cases file with
  | none => exact hnil
  | some f =>
    rw [Option.toList_some, List.flatMap_singleton]
    exact h f

/-- What holds of the calls of finding a call, and of those for a dumped packet with the flush of
`-U`, holds of the calls of a branch. -/
lemma calls_rule {P : List IoEvent → Prop} (hnil : P []) (happend : ∀ l m, P l → P m → P (l ++ m))
    (hfind : ∀ msg ts s, P (findOrAddCalls o host msg ts s))
    (hdump : ∀ via f packet flushes, o.optPacketbuffered ∈ flushes →
      P (dumpCalls via f packet flushes)) (b : Branch) : P (b.calls o host p s) := by
  cases b with
  | skip => exact hnil
  | fragment aai last => exact flatMap_toList hnil (fun f => hdump _ f _ _ (by simp)) _
  | rtp ip g =>
    simp only [Branch.calls]
    split
    · exact flatMap_toList hnil (fun f => hdump _ f _ _ (by simp)) _
    · exact hnil
  | sip ip msg =>
    simp only [Branch.calls]
    refine happend _ _ (hfind msg p.ts s) ?_
    rcases findOrAdd o host msg p.ts s with ⟨_ | i, s'⟩
    · exact hnil
    · exact flatMap_toList hnil (fun f => hdump _ f _ _ (by simp)) _

/-- With `-U` an input leaves nothing pending. -/
lemma settled_inputCalls (hU : o.optPacketbuffered) (host : Host) (s : State) (a : Input) :
    pcapBuffers.Settled (inputCalls o host s a) := by
  refine (Buffering.settled_of_forall writes_passCalls).append ?_
  cases a with
  | cleanup currtime => exact Buffering.settled_of_forall (by simp [packetCalls])
  | packet p =>
    refine calls_rule (P := pcapBuffers.Settled) (Buffering.settled_of_forall (by simp))
      (fun _ _ => Buffering.Settled.append) (fun msg ts s => ?_)
      (fun via f packet flushes hmem => settled_dumpCalls via f packet (hU ▸ hmem)) _
    exact Buffering.settled_of_forall fun e he => (quiet_findOrAddCalls e he).1

/-- A pass flushes each file before it closes it. -/
lemma keepsOrder_closeEvents (eraseNonT38 : Bool) (e : CalltableElement) :
    pcapBuffers.KeepsOrder (e.closeEvents eraseNonT38) := by
  rcases hf : e.fPcap with _ | f
  · rw [CalltableElement.closeEvents_none hf]
    exact Buffering.keepsOrder_nil
  · rw [CalltableElement.closeEvents_some hf,
      show [IoEvent.flush f, .close f, e.finishEvent eraseNonT38] =
        [.flush f, .close f] ++ [e.finishEvent eraseNonT38] from rfl]
    refine (Buffering.keepsOrder_flush_close rfl rfl rfl rfl).append
      (Buffering.keepsOrder_of_forall ?_)
    simp only [List.mem_singleton, forall_eq]
    rcases e.finishEvent_cases eraseNonT38 with h | h <;> rw [h] <;> rfl

lemma keepsOrder_inputCalls (o : Options) (host : Host) (s : State) (a : Input) :
    pcapBuffers.KeepsOrder (inputCalls o host s a) := by
  have hpass : pcapBuffers.KeepsOrder (passCalls s a) := by
    unfold passCalls
    split
    · exact Buffering.keepsOrder_nil
    · rename_i currtime _
      simp only [Calltable.doCleanup]
      induction s.world.ct.table with
      | nil => exact Buffering.keepsOrder_nil
      | cons e es ih =>
        rw [List.flatMap_cons]
        refine Buffering.KeepsOrder.append ?_ ih
        split
        · exact keepsOrder_closeEvents _ e
        · exact Buffering.keepsOrder_nil
  refine hpass.append ?_
  cases a with
  | cleanup currtime => exact Buffering.keepsOrder_nil
  | packet p =>
    refine calls_rule (P := pcapBuffers.KeepsOrder) Buffering.keepsOrder_nil
      (fun _ _ => Buffering.KeepsOrder.append) (fun msg ts s => ?_)
      (fun via f packet flushes _ => Buffering.keepsOrder_of_forall closes_dumpCalls) _
    exact Buffering.keepsOrder_of_forall fun e he => (quiet_findOrAddCalls e he).2

/-! ### Runs -/

/-- **What is recorded reaches the disk.**  With `-U` nothing that a run has dumped is left in a
buffer.  With or without it nothing is left in the buffer of a file when the file is closed, and
nothing in the buffer of a file into which a BYE has just been dumped. -/
theorem recorded_data_flushed (o : Options) (host : Host) (inputs : List Input) :
    let s := (loop o host).run o.start inputs
    (o.optPacketbuffered → pcapBuffers.Settled s.world.log) ∧
      pcapBuffers.ClosesInOrder s.world.log ∧
      ∀ p ip msg i f r, branch o p (afterPass s (.packet p)).world = .sip ip msg → msg.isBye →
        (.sip i, f, r) ∈ inputDumps o host s (.packet p) →
        ¬pcapBuffers.Pending f ((loop o host).next s (.packet p)).world.log := by
  intro s
  refine ⟨fun hU => ?_, ?_, fun p ip msg i f r hb hbye hd => ?_⟩
  · simp only [s, log_run_loop]
    exact Machine.collect_of_append (I := fun _ => True)
      (Buffering.settled_of_forall (by simp)) (fun _ _ => Buffering.Settled.append)
      (fun _ _ _ => trivial) (fun s a _ => settled_inputCalls hU host s a) trivial inputs
  · have hkeeps : pcapBuffers.KeepsOrder s.world.log := by
      simp only [s, log_run_loop]
      exact Machine.collect_of_append (I := fun _ => True) Buffering.keepsOrder_nil
        (fun _ _ => Buffering.KeepsOrder.append) (fun _ _ _ => trivial)
        (fun s a _ => keepsOrder_inputCalls o host s a) trivial inputs
    exact hkeeps [] Buffering.closesInOrder_nil
  · have hw := ((owns_run o host inputs).afterPass (.packet p)).tableInv
    rw [log_loop o host hw, inputCalls, packetCalls, hb, Branch.calls]
    simp only [inputDumps, hb, Branch.dumps] at hd
    rcases heq : findOrAdd o host msg p.ts (afterPass s (.packet p)) with ⟨_ | k, t⟩
    · simp [heq] at hd
    · simp only [heq, List.mem_map, Option.mem_toList, Prod.mk.injEq] at hd ⊢
      obtain ⟨f', hf, -, rfl, -⟩ := hd
      rw [hf, Option.toList_some, List.flatMap_singleton, hbye, ← List.append_assoc,
        ← List.append_assoc]
      intro hp
      rcases Buffering.pending_append.mp hp with hp | ⟨-, hno⟩
      · exact settled_dumpCalls _ f' _ (by simp) f' hp
      · exact hno (.flush f') (by simp [dumpCalls]) rfl

/-- The same settings with `-U` as given. -/
def Options.buffered (o : Options) (b : Bool) : Options := { o with optPacketbuffered := b }

/-- A BYE of the call with this Call-ID, from 10.0.0.1 to 10.0.0.2. -/
def byeRequest (callId : String) : Bytes :=
  ipv4Udp 3 0 [10, 0, 0, 1] [10, 0, 0, 2] 5060 5060 (sipRequest "BYE" callId [])

/-- An INVITE is flushed with `-U`, and without it by the BYE of its call. -/
theorem recorded_data_flushed_bye :
    let s := (loop Options.raw Host.numbering).run Options.raw.start
      [.packet (.captured 1000 (invite "x"))]
    let bye : Packet := .captured 1001 (byeRequest "x")
    pcapBuffers.Pending 1 s.world.log ∧
      ¬pcapBuffers.Pending 1 ((loop Options.raw Host.numbering).next s (.packet bye)).world.log ∧
      pcapBuffers.Settled ((loop (Options.raw.buffered true) Host.numbering).run
        (Options.raw.buffered true).start [.packet (.captured 1000 (invite "x"))]).world.log := by
  intro s bye
  refine ⟨by decide +kernel, ?_,
    (recorded_data_flushed (Options.raw.buffered true) Host.numbering _).1 rfl⟩
  obtain ⟨ip, msg, hb, hm, -⟩ := exists_of_message (show (branch Options.raw bye
    (afterPass s (.packet bye)).world).message.map
      (fun msg => (msg.method, msg.callId)) = some (ascii "BYE", some (ascii "x")) by
    decide +kernel)
  have hdumps : inputDumps Options.raw Host.numbering s (.packet bye) =
      [(.sip 0, 1, bye.terminate.record)] := by decide +kernel
  refine (recorded_data_flushed Options.raw Host.numbering
    [.packet (.captured 1000 (invite "x"))]).2.2 bye ip msg 0 1 bye.terminate.record hb ?_ ?_
  · simp [SipMessage.isBye, hm]
  · exact hdumps.symm ▸ List.mem_singleton.mpr rfl

/-! ### With and without `-U` -/

/-- The calls but for the flushes. -/
def withoutFlushes (log : List IoEvent) : List IoEvent :=
  log.filter fun e => (pcapBuffers.flushes e).isNone

/-- The opening of a file does not depend on the flushes that have been made. -/
def Host.IgnoresFlushes (host : Host) : Prop :=
  ∀ log log' fn, withoutFlushes log = withoutFlushes log' →
    host.dumpOpen log fn = host.dumpOpen log' fn

/-- The tables are the same, and the calls but for the flushes. -/
structure SameButFlushes (w v : World) : Prop where
  ct : w.ct = v.ct
  log : withoutFlushes w.log = withoutFlushes v.log

lemma withoutFlushes_append (l m : List IoEvent) :
    withoutFlushes (l ++ m) = withoutFlushes l ++ withoutFlushes m := List.filter_append l m

namespace SameButFlushes

lemma slot (h : SameButFlushes w v) (i : ℕ) : w.slot i = v.slot i := by
  rw [World.slot, World.slot, h.ct]

lemma withCt (h : SameButFlushes w v) (f : Calltable → Calltable) :
    SameButFlushes { w with ct := f w.ct } { v with ct := f v.ct } :=
  ⟨congrArg f h.ct, h.log⟩

lemma write (h : SameButFlushes w v) (i : ℕ) (e : ElementWrite) :
    SameButFlushes (w.write i e) (v.write i e) := h.withCt fun ct => ct.modify i e.apply

lemma dump (h : SameButFlushes w v) (via : Via) (f : Handle) (packet : Record)
    (flushes flushes' : List Bool) :
    SameButFlushes (w.dump via f packet flushes) (v.dump via f packet flushes') := by
  have hcalls : ∀ flushes : List Bool, withoutFlushes (.dump via f packet ::
      (flushes.filter id).map fun _ => .flush f) = [.dump via f packet] := by
    intro flushes
    rw [withoutFlushes, List.filter_cons_of_pos rfl, List.filter_eq_nil_iff.mpr]
    intro e he
    obtain ⟨_, -, rfl⟩ := List.mem_map.mp he
    exact Bool.false_ne_true
  refine ⟨h.ct, ?_⟩
  simp only [World.dump, World.emit, withoutFlushes_append, h.log, hcalls]

lemma rtpDump (h : SameButFlushes w v) (i : ℕ) (packet : Record) (b b' : Bool) :
    SameButFlushes (w.rtpDump i packet b) (v.rtpDump i packet b') := by
  unfold World.rtpDump
  rw [h.slot]
  rcases (v.slot i).fPcap with _ | f
  · exact h
  · exact (h.write i _).dump _ f packet _ _

lemma sipDump (h : SameButFlushes w v) (i : ℕ) (packet : Record) (bye b b' : Bool) :
    SameButFlushes (w.sipDump i packet bye b) (v.sipDump i packet bye b') := by
  unfold World.sipDump
  rw [h.slot]
  rcases (v.slot i).fPcap with _ | f
  · exact h
  · exact h.dump _ f packet _ _

lemma fragment (h : SameButFlushes w v) (aai : AddrAddrId) (packet : Record) (last b b' : Bool) :
    SameButFlushes (w.fragment aai packet last b) (v.fragment aai packet last b') := by
  unfold World.fragment
  rw [h.ct]
  rcases v.ct.getIpfrag aai with ⟨_ | f, ct⟩
  · exact ⟨rfl, h.log⟩
  · have hct : SameButFlushes (World.mk ct w.log) (World.mk ct v.log) := ⟨rfl, h.log⟩
    have hdump := hct.dump (.ipfrag aai) f packet [b] [b']
    cases last
    · exact hdump
    · exact hdump.withCt fun ct => ct.deleteIpfrag aai

lemma cleanup (h : SameButFlushes w v) (currtime : ℤ) :
    SameButFlushes (w.cleanup currtime) (v.cleanup currtime) := by
  refine ⟨by rw [World.cleanup, h.ct]; rfl, ?_⟩
  simp only [World.cleanup, withoutFlushes_append, h.log, h.ct]

lemma add (h : SameButFlushes w v) (callId caller callee : Bytes) (time : ℤ) :
    SameButFlushes (w.add callId caller callee time).2 (v.add callId caller callee time).2 := by
  refine ⟨by rw [World.add, h.ct]; rfl, ?_⟩
  simp only [World.add, withoutFlushes_append, h.log, h.ct]

lemma openFile (h : SameButFlushes w v) (hhost : host.IgnoresFlushes) (libbsd : Bool) (i : ℕ)
    (callId fn : Bytes) (dir : Option Bytes) :
    SameButFlushes (w.openFile host libbsd i callId fn dir)
      (v.openFile host libbsd i callId fn dir) := by
  have hmkdir : withoutFlushes (w.log ++ (dir.map IoEvent.mkdirP).toList) =
      withoutFlushes (v.log ++ (dir.map IoEvent.mkdirP).toList) := by
    rw [withoutFlushes_append, withoutFlushes_append, h.log]
  have hfile := hhost _ _ fn hmkdir
  refine ⟨?_, ?_⟩
  · simp only [World.openFile, World.write, hfile, h.ct, h.slot]
  · simp only [World.log_openFile, hfile, withoutFlushes_append, h.log]

lemma findIpPortSsrc (h : SameButFlushes w v) (addr : UInt32) (port : UInt16) (ssrc : UInt32) :
    (w.findIpPortSsrc addr port ssrc).1 = (v.findIpPortSsrc addr port ssrc).1 ∧
      SameButFlushes (w.findIpPortSsrc addr port ssrc).2 (v.findIpPortSsrc addr port ssrc).2 := by
  simp only [World.findIpPortSsrc, h.ct]
  exact ⟨trivial, rfl, h.log⟩

lemma rtpLookup (h : SameButFlushes w v) (o : Options) (m : Bytes) (ip : ℕ) :
    (rtpLookup o m ip w).1 = (PcapSipDump.rtpLookup o m ip v).1 ∧
      SameButFlushes (PcapSipDump.rtpLookup o m ip w).2 (PcapSipDump.rtpLookup o m ip v).2 := by
  unfold PcapSipDump.rtpLookup
  by_cases hsave : o.optRtpsave = .none
  · rw [if_pos hsave, if_pos hsave]
    exact ⟨rfl, h⟩
  rw [if_neg hsave, if_neg hsave]
  have hdst := h.findIpPortSsrc (hdaddr m ip) (destPort m ip &&& o.optRtpsave.portMask)
    (packetSsrc o m ip)
  rcases hf : w.findIpPortSsrc (hdaddr m ip) (destPort m ip &&& o.optRtpsave.portMask)
    (packetSsrc o m ip) with ⟨f, w'⟩
  rcases hg : v.findIpPortSsrc (hdaddr m ip) (destPort m ip &&& o.optRtpsave.portMask)
    (packetSsrc o m ip) with ⟨g, v'⟩
  rw [hf, hg] at hdst
  obtain ⟨hfg, hworld⟩ : f = g ∧ SameButFlushes w' v' := hdst
  subst hfg
  cases f with
  | none => exact hworld.findIpPortSsrc _ _ _
  | some f => exact ⟨rfl, hworld⟩

/-- The branch of a packet is the same. -/
lemma branch (h : SameButFlushes w v) (o : Options) (p : Packet) :
    branch o p w = PcapSipDump.branch o p v := by
  simp only [PcapSipDump.branch, admittedBranch, (h.rtpLookup o p.mem _).1]

end SameButFlushes

/-- The states of the loop are the same but for flushes. -/
structure SameStateButFlushes (s t : State) : Prop where
  world : SameButFlushes s.world t.world
  lastCleanup : s.lastCleanup = t.lastCleanup
  callSkipCnt : s.callSkipCnt = t.callSkipCnt

namespace SameStateButFlushes

lemma newCall (h : SameStateButFlushes s t) (hhost : host.IgnoresFlushes) (o : Options)
    (msg : SipMessage) (callId : Bytes) (ts : ℤ) (i : ℕ) :
    SameStateButFlushes (newCall o host msg callId ts i s)
      (PcapSipDump.newCall o host msg callId ts i t) := by
  have hnoFile : SameButFlushes (s.world.noFile i) (t.world.noFile i) := by
    rw [World.noFile, World.noFile, h.world.slot]
    exact h.world.write i _
  unfold PcapSipDump.newCall
  rw [h.callSkipCnt]
  split
  · split
    · exact ⟨hnoFile, h.lastCleanup, rfl⟩
    · exact ⟨h.world.openFile hhost _ i callId _ _, h.lastCleanup, rfl⟩
  · exact ⟨hnoFile, h.lastCleanup, rfl⟩

lemma findOrAdd (h : SameStateButFlushes s t) (hhost : host.IgnoresFlushes) (o : Options)
    (msg : SipMessage) (ts : ℤ) :
    (findOrAdd o host msg ts s).1 = (PcapSipDump.findOrAdd o host msg ts t).1 ∧
      SameStateButFlushes (PcapSipDump.findOrAdd o host msg ts s).2
        (PcapSipDump.findOrAdd o host msg ts t).2 := by
  unfold PcapSipDump.findOrAdd
  rcases msg.callId with _ | callId
  · exact ⟨rfl, h⟩
  simp only [h.world.ct]
  rcases t.world.ct.findByCallId callId with _ | i
  · simp only
    split
    · have hadd := h.world.add callId msg.caller.toBytes msg.called.toBytes ts
      have hadded : SameStateButFlushes { s with
          world := (s.world.add callId msg.caller.toBytes msg.called.toBytes ts).2 } { t with
          world := (t.world.add callId msg.caller.toBytes msg.called.toBytes ts).2 } :=
        ⟨hadd, h.lastCleanup, h.callSkipCnt⟩
      have hidx : (s.world.add callId msg.caller.toBytes msg.called.toBytes ts).1 =
          (t.world.add callId msg.caller.toBytes msg.called.toBytes ts).1 := by
        rw [World.add, World.add, h.world.ct]
      rw [hidx]
      exact ⟨rfl, hadded.newCall hhost o msg callId ts _⟩
    · exact ⟨rfl, h⟩
  · exact ⟨rfl, h⟩

/-- A branch keeps the states the same, with and without `-U`. -/
lemma run (h : SameStateButFlushes s t) (hhost : host.IgnoresFlushes) (o : Options) (x : Bool)
    (p : Packet) (b : Branch) :
    SameStateButFlushes (b.run o host p s) (b.run (o.buffered x) host p t) := by
  cases b with
  | skip => exact h
  | fragment aai last =>
    exact ⟨h.world.fragment aai p.record last _ _, h.lastCleanup, h.callSkipCnt⟩
  | rtp ip f =>
    have hlookup := (h.world.rtpLookup o p.mem ip).2
    have hbranch : SameButFlushes (rtpBranch o p ip f (rtpLookup o p.mem ip s.world).2)
        (rtpBranch (o.buffered x) p ip f (rtpLookup o p.mem ip t.world).2) := by
      have hsaves : ∀ data, savesPayload (o.buffered x) data = savesPayload o data := fun _ => rfl
      rw [rtpBranch, rtpBranch, hsaves, hlookup.slot]
      split
      · exact hlookup.rtpDump f.1 p.record _ _
      · exact hlookup
    exact ⟨hbranch, h.lastCleanup, h.callSkipCnt⟩
  | sip ip msg =>
    have hfind := h.findOrAdd hhost o msg p.ts
    have hsame : PcapSipDump.findOrAdd (o.buffered x) host msg p.ts t =
        PcapSipDump.findOrAdd o host msg p.ts t := rfl
    simp only [Branch.run, hsame]
    rcases hs : PcapSipDump.findOrAdd o host msg p.ts s with ⟨i, s'⟩
    rcases ht : PcapSipDump.findOrAdd o host msg p.ts t with ⟨j, t'⟩
    rw [hs, ht] at hfind
    obtain ⟨hij, hstate⟩ : i = j ∧ SameStateButFlushes s' t' := hfind
    subst hij
    cases i with
    | none => exact hstate
    | some i =>
      refine ⟨?_, hstate.lastCleanup, hstate.callSkipCnt⟩
      simp only [sipCall_eq, foldl_write_eq]
      have hwrites := hstate.world.withCt fun ct => ct.modify i fun c =>
        msg.writes.foldl (fun c e => e.apply c) c
      have hdump := hwrites.sipDump i p.terminate.record msg.isBye o.optPacketbuffered x
      rcases recordKey p.terminate.mem ip with _ | k
      · exact hdump
      · refine ⟨?_, hdump.log⟩
        simp only [World.recordFrag, World.addIpfrag, hdump.ct, hdump.slot]
        rfl

lemma afterPass (h : SameStateButFlushes s t) (a : Input) :
    SameStateButFlushes (afterPass s a) (PcapSipDump.afterPass t a) := by
  cases a with
  | packet p =>
    simp only [PcapSipDump.afterPass, State.periodicCleanup, h.lastCleanup]
    split
    · exact ⟨h.world.cleanup p.ts, rfl, h.callSkipCnt⟩
    · exact h
  | cleanup currtime => exact ⟨h.world.cleanup currtime, h.lastCleanup, h.callSkipCnt⟩

lemma loop (h : SameStateButFlushes s t) (hhost : host.IgnoresFlushes) (o : Options) (x : Bool)
    (a : Input) : SameStateButFlushes ((loop o host).next s a)
      ((PcapSipDump.loop (o.buffered x) host).next t a) := by
  have hpass := h.afterPass a
  cases a with
  | cleanup currtime => exact hpass
  | packet p =>
    have hbranch : branch (o.buffered x) p (PcapSipDump.afterPass t (.packet p)).world =
        branch o p (PcapSipDump.afterPass s (.packet p)).world := (hpass.world.branch o p).symm
    have hrun := hpass.run hhost o x p (branch o p (PcapSipDump.afterPass s (.packet p)).world)
    rw [← dispatch_eq, ← hbranch, ← dispatch_eq] at hrun
    exact hrun

end SameStateButFlushes

/-- **`-U` only flushes.**  Where the opening of a file does not depend on earlier flushes, the runs
with and without `-U` on any inputs end with the same call table, hence the same calls and the same
fragment map, and have made the same calls in the same order but for the flushes. -/
theorem packetbuffered_only_flushes (o : Options) (host : Host) (hhost : host.IgnoresFlushes)
    (b : Bool) (inputs : List Input) :
    let w := ((loop o host).run o.start inputs).world
    let v := ((loop (o.buffered b) host).run (o.buffered b).start inputs).world
    w.ct = v.ct ∧ withoutFlushes w.log = withoutFlushes v.log := by
  have hrun := Machine.unwinding (M := loop o host) (N := loop (o.buffered b) host)
    (R := SameStateButFlushes) (E := Eq) (f := fun _ _ => ([] : List Unit)) (g := fun _ _ => [])
    (fun s t a c h hac => ⟨hac ▸ h.loop hhost o b a, rfl⟩)
    (show SameStateButFlushes o.start (o.buffered b).start from ⟨⟨rfl, rfl⟩, rfl, rfl⟩)
    (List.forall₂_refl inputs)
  exact ⟨hrun.1.world.ct, hrun.1.world.log⟩

lemma ignoresFlushes_numbering : Host.numbering.IgnoresFlushes := by
  have hopened : ∀ log, pcapFiles.opened log = pcapFiles.opened (withoutFlushes log) := by
    intro log
    rw [Usage.opened, Usage.opened, withoutFlushes, List.filterMap_filter]
    refine List.filterMap_congr fun e _ => ?_
    cases e <;> rfl
  intro log log' fn h
  simp only [Host.numbering, hopened log, hopened log', h]

/-- A call with one media packet: the logs differ, and only in the flushes. -/
theorem packetbuffered_only_flushes_media :
    let inputs : List Input := [.packet (.captured 1000 (invite "x")),
      .packet (.captured 1001 (media 4000 1))]
    let w := ((loop Options.raw Host.numbering).run Options.raw.start inputs).world
    let v := ((loop (Options.raw.buffered true) Host.numbering).run
      (Options.raw.buffered true).start inputs).world
    w.log ≠ v.log ∧ w.written.length = 2 ∧ w.ct = v.ct ∧
      withoutFlushes w.log = withoutFlushes v.log := by
  intro inputs w v
  refine ⟨by decide +kernel, by decide +kernel, ?_⟩
  exact packetbuffered_only_flushes Options.raw Host.numbering ignoresFlushes_numbering true inputs

end PcapSipDump
