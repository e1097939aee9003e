import PcapSipDump.Capture.Branch
import PcapSipDump.Lib.Traces

/-!
# The calls that an input makes

What the capture loop adds to the log for one input: the calls of its pass, and those of the
branch of its packet (`log_loop`).  The log of a run is therefore what the run puts out
(`log_run_loop`), and a statement about the log of a run is one about the calls of its inputs.
-/

namespace PcapSipDump

open Lib Lib.CString

variable {o : Options} {host : Host} {libbsd : Bool} {w : World} {p : Packet} {s : State}
  {a : Input}

/-- A packet keeps the invariant of the table. -/
lemma tableInv_dispatch (o : Options) (host : Host) (p : Packet) (h : s.world.ct.TableInv) :
    (dispatch o host p s).world.ct.TableInv := by
  have hperforms : Performs host o.libbsd p s.world (dispatch o host p s).world :=
    performs_dispatch p h
  exact hperforms.tableInv h

/-- The calls of `pcap_dump` and `pcap_dump_flush` for one packet. -/
def dumpCalls (via : Via) (f : Handle) (packet : Record) (flushes : List Bool) : List IoEvent :=
  .dump via f packet :: (flushes.filter id).map fun _ => .flush f

/-- The calls for the file of a call that has just been added. -/
def newCallCalls (o : Options) (host : Host) (msg : SipMessage) (callId : Bytes) (ts : ℤ)
    (s : State) : List IoEvent :=
  if o.methodFilter msg.method ∧ s.callSkipCnt - 1 ≤ 0 then
    let fn := fileName o host msg ts
    let mkdir := ((if 47 ∈ fn then some (dirname fn) else none).map IoEvent.mkdirP).toList
    mkdir ++ [.dumpOpen callId fn (host.dumpOpen (s.world.log ++ mkdir) fn)]
  else []

/-- The state after `ct->add(..)` for a message. -/
def State.added (s : State) (msg : SipMessage) (callId : Bytes) (ts : ℤ) : State :=
  { s with world := (s.world.add callId msg.caller.toBytes msg.called.toBytes ts).2 }

/-- The calls for finding or adding the call of a message. -/
def findOrAddCalls (o : Options) (host : Host) (msg : SipMessage) (ts : ℤ) (s : State) :
    List IoEvent :=
  match msg.callId with
  | none => []
  | some callId =>
      match s.world.ct.findByCallId callId with
      | some _ => []
      | none =>
          if numberFilterMatched o msg then
            (s.world.ct.add callId msg.caller.toBytes msg.called.toBytes ts).2.2 ++
              newCallCalls o host msg callId ts (s.added msg callId ts)
          else []

/-- The calls of a branch. -/
def Branch.calls (o : Options) (host : Host) (p : Packet) (s : State) : Branch → List IoEvent
  | .skip => []
  | .fragment aai _ =>
      (s.world.ct.getIpfrag aai).1.toList.flatMap fun f =>
        dumpCalls (.ipfrag aai) f p.record [o.optPacketbuffered]
  | .rtp ip g =>
      if savesPayload o (p.mem.drop (dataPos p.mem ip)) (s.world.slot g.1) then
        (s.world.slot g.1).fPcap.toList.flatMap fun f =>
          dumpCalls (.rtp g.1) f p.record [o.optPacketbuffered]
      else []
  | .sip _ msg =>
      findOrAddCalls o host msg p.ts s ++
        match findOrAdd o host msg p.ts s with
        | (some i, s') => (s'.world.slot i).fPcap.toList.flatMap fun f =>
            dumpCalls (.sip i) f p.terminate.record [msg.isBye, o.optPacketbuffered]
        | (none, _) => []

/-- The calls of the pass that an input starts with. -/
def passCalls (s : State) (a : Input) : List IoEvent :=
  match passTime s a with
  | none => []
  | some currtime => (s.world.ct.doCleanup currtime).2

/-- The calls of the packet of an input, after its pass. -/
def packetCalls (o : Options) (host : Host) (s : State) : Input → List IoEvent
  | .packet p => (branch o p s.world).calls o host p s
  | .cleanup _ => []

/-- The calls that an input makes. -/
def inputCalls (o : Options) (host : Host) (s : State) (a : Input) : List IoEvent :=
  passCalls s a ++ packetCalls o host (afterPass s a) a

/-! ### The log after an input -/

lemma World.log_rtpDump (i : ℕ) (packet : Record) (b : Bool) :
    (w.rtpDump i packet b).log =
      w.log ++ (w.slot i).fPcap.toList.flatMap fun f => dumpCalls (.rtp i) f packet [b] := by
  unfold rtpDump
  rcases (w.slot i).fPcap with _ | f
  · exact (List.append_nil _).symm
  · rw [Option.toList_some, List.flatMap_singleton]
    rfl

lemma World.log_sipDump (i : ℕ) (packet : Record) (b c : Bool) :
    (w.sipDump i packet b c).log =
      w.log ++ (w.slot i).fPcap.toList.flatMap fun f => dumpCalls (.sip i) f packet [b, c] := by
  unfold sipDump
  rcases (w.slot i).fPcap with _ | f
  · exact (List.append_nil _).symm
  · rw [Option.toList_some, List.flatMap_singleton]
    rfl

lemma World.log_fragment (aai : AddrAddrId) (packet : Record) (last b : Bool) :
    (w.fragment aai packet last b).log =
      w.log ++ (w.ct.getIpfrag aai).1.toList.flatMap fun f =>
        dumpCalls (.ipfrag aai) f packet [b] := by
  unfold fragment
  rcases w.ct.getIpfrag aai with ⟨_ | f, ct⟩
  · exact (List.append_nil _).symm
  · rw [Option.toList_some, List.flatMap_singleton]
    cases last <;> rfl

lemma log_newCall (o : Options) (host : Host) (msg : SipMessage) (callId : Bytes) (ts : ℤ) (i : ℕ)
    (s : State) : (newCall o host msg callId ts i s).world.log =
      s.world.log ++ newCallCalls o host msg callId ts s := by
  rcases newCall_cases o host msg callId ts i s with
    ⟨hm, he⟩ | ⟨-, hskip, he⟩ | ⟨hm, hskip, he⟩
  · rw [he, newCallCalls, if_neg fun h => hm h.1]
    exact (List.append_nil _).symm
  · rw [he, newCallCalls, if_neg fun h => not_lt.mpr h.2 hskip]
    exact (List.append_nil _).symm
  · rw [newCallCalls, if_pos ⟨hm, hskip⟩, he]
    exact World.log_openFile _ _ _ _ _

lemma log_findOrAdd (o : Options) (host : Host) (msg : SipMessage) (ts : ℤ) (s : State) :
    (findOrAdd o host msg ts s).2.world.log =
      s.world.log ++ findOrAddCalls o host msg ts s := by
  unfold findOrAddCalls
  rcases hid : msg.callId with _ | callId
  · simp only [findOrAdd, hid, List.append_nil]
  rcases hf : s.world.ct.findByCallId callId with _ | i <;> simp only [hf]
  · by_cases hn : numberFilterMatched o msg
    · rw [if_pos hn, findOrAdd_added hid hf hn host ts, ← List.append_assoc]
      exact log_newCall o host msg callId ts _ (s.added msg callId ts)
    · rw [if_neg hn, findOrAdd_refused hid hf hn host ts, List.append_nil]
  · rw [findOrAdd_found hid hf o host ts, List.append_nil]

lemma log_sipCall {ip i : ℕ} {msg : SipMessage} (hbody : ∀ e ∈ msg.body, e.IsSdp)
    (hu : (w.slot i).isUsed) : (sipCall o p ip i msg w).log =
      w.log ++ (w.slot i).fPcap.toList.flatMap fun f =>
        dumpCalls (.sip i) f p.record [msg.isBye, o.optPacketbuffered] := by
  -- the assignments of the message write nothing and keep the file of the call
  have hes := ElementWrite.IsSip.ne_file (SipMessage.isSip_writes hbody)
  have hlog : (msg.writes.foldl (fun w e => w.write i e) w).log = w.log := by
    rw [foldl_write_eq]
  have hfile : ((msg.writes.foldl (fun w e => w.write i e) w).slot i).fPcap =
      (w.slot i).fPcap := by
    rw [slot_foldl_write hu, if_pos rfl]
    exact (SameCall.foldl_apply hes _).fPcap
  rw [sipCall_eq, World.log_recordFrag, World.log_sipDump, hlog, hfile]

/-- **The calls of a packet** are those of its branch, after the calls made before. -/
theorem log_dispatch (o : Options) (host : Host) (p : Packet) {s : State}
    (hw : s.world.ct.TableInv) : (dispatch o host p s).world.log =
      s.world.log ++ (branch o p s.world).calls o host p s := by
  rw [dispatch_eq]
  rcases hb : branch o p s.world with _ | ⟨aai, last⟩ | ⟨ip, f⟩ | ⟨ip, msg⟩
  · exact (List.append_nil _).symm
  · exact World.log_fragment _ _ _ _
  · obtain ⟨hlog, -, hslot⟩ := rtpLookup_frame hw.unusedZero o p.mem ip
    have hsaves : ∀ data, savesPayload o data ((rtpLookup o p.mem ip s.world).2.slot f.1) =
        savesPayload o data (s.world.slot f.1) := by
      intro data
      rw [savesPayload, (hslot f.1).2, savesPayload]
    simp only [Branch.run, Branch.calls, rtpBranch, hsaves]
    split
    · rw [World.log_rtpDump, (hslot f.1).1.fPcap, hlog]
    · rw [hlog, List.append_nil]
  · have hfind := log_findOrAdd o host msg p.ts s
    have hused := used_findOrAdd o host msg p.ts hw
    rcases heq : findOrAdd o host msg p.ts s with ⟨_ | i, s'⟩
    · rw [heq] at hfind
      simp only [Branch.run, Branch.calls, heq, List.append_nil]
      exact hfind
    · rw [heq] at hfind hused
      simp only [Branch.run, Branch.calls, heq]
      rw [log_sipCall (body_of_branch_sip hb) (hused i rfl), hfind, List.append_assoc]

lemma log_afterPass (s : State) (a : Input) :
    (afterPass s a).world.log = s.world.log ++ passCalls s a := by
  rw [afterPass_world, passCalls]
  rcases passTime s a with _ | currtime
  · exact (List.append_nil _).symm
  · rfl

/-- **The calls of an input** come after the calls made before. -/
theorem log_loop (o : Options) (host : Host) {s : State} {a : Input}
    (hw : (afterPass s a).world.ct.TableInv) :
    ((loop o host).next s a).world.log = s.world.log ++ inputCalls o host s a := by
  rw [inputCalls, ← List.append_assoc, ← log_afterPass]
  cases a with
  | packet p => exact log_dispatch o host p hw
  | cleanup currtime => exact (List.append_nil _).symm

/-- The log of a run is what its inputs have put out. -/
theorem log_run_loop (o : Options) (host : Host) (inputs : List Input) :
    ((loop o host).run o.start inputs).world.log =
      (loop o host).collect (inputCalls o host) o.start inputs :=
  Machine.log_run (M := loop o host) (L := fun s : State => s.world.log)
    (I := fun s : State => Owns s.world) (fun _ a hs => hs.loop a)
    (fun _ a hs => log_loop o host (hs.afterPass a).tableInv) (owns_start o) inputs

/-- A call in the log of a run has been made for one of its inputs. -/
lemma mem_log_run {inputs : List Input} {e : IoEvent} :
    e ∈ ((loop o host).run o.start inputs).world.log ↔
      ∃ pre a post, inputs = pre ++ a :: post ∧
        e ∈ inputCalls o host ((loop o host).run o.start pre) a := by
  rw [log_run_loop, Machine.mem_collect]

end PcapSipDump
