import PcapSipDump.Capture.Branch

/-!
# Open triggers

`Trigger::trigger(&open, ..)` is called by `calltable::add`, before the capture loop has decided
whether the call gets a file, and with the path in the element that has just been taken, which is
empty.  So the open triggers match the created files exactly as long as every call that is added
gets a file with the empty path (`openTriggersMatch_iff`).
-/

namespace PcapSipDump

open Lib Lib.CString

variable {o : Options} {host : Host} {libbsd : Bool} {w : World} {p : Packet} {s : State}

/-! ### Triggers and files -/

/-- The path that an open trigger is called with. -/
def IoEvent.openTrigger : IoEvent → Option Bytes
  | .trigger .open fn _ _ _ _ => some fn
  | _ => none

/-- The path of the file that `pcap_dump_open` creates. -/
def IoEvent.created : IoEvent → Option Bytes
  | .dumpOpen _ fn (some _) => some fn
  | _ => none

/-- For each file that has been created, an open trigger has been called once with its path, and
for nothing else. -/
def OpenTriggersMatch (w : World) : Prop :=
  (w.log.filterMap IoEvent.openTrigger).Perm (w.log.filterMap IoEvent.created)

/-- The path of the file that is created for a call added with the message, if there is one. -/
def createdFile (o : Options) (host : Host) (msg : SipMessage) (callId : Bytes) (ts : ℤ)
    (s : State) : Option Bytes :=
  if o.methodFilter msg.method ∧ s.callSkipCnt - 1 ≤ 0 then
    let fn := fileName o host msg ts
    let w := (s.world.add callId msg.caller.toBytes msg.called.toBytes ts).2
    let dir := if 47 ∈ fn then some (dirname fn) else none
    if (host.dumpOpen (w.log ++ (dir.map IoEvent.mkdirP).toList) fn).isSome then some fn else none
  else none

/-- The input adds no call, or one for which a file with the empty path is created. -/
def OpenTriggerCondition (o : Options) (host : Host) (s : State) : Input → Prop
  | .packet p => ∀ ip msg callId, branch o p (afterPass s (.packet p)).world = .sip ip msg →
      msg.callId = some callId →
      (afterPass s (.packet p)).world.ct.findByCallId callId = none → numberFilterMatched o msg →
      createdFile o host msg callId p.ts (afterPass s (.packet p)) = some []
  | .cleanup _ => True

/-! ### The calls that open -/

/-- Calls of `pcap_dump_open` and of open triggers. -/
def IoEvent.isOpening : IoEvent → Bool
  | .dumpOpen _ _ _ => true
  | .trigger .open _ _ _ _ _ => true
  | _ => false

/-- The calls of `pcap_dump_open` and of open triggers made so far. -/
def World.openings (w : World) : List IoEvent := w.log.filter IoEvent.isOpening

/-- The triggers and the created files are among the openings. -/
lemma filterMap_openings {g : IoEvent → Option Bytes} (hg : ∀ e, e.isOpening = false → g e = none)
    (w : World) : w.openings.filterMap g = w.log.filterMap g := by
  rw [World.openings, List.filterMap_filter]
  refine List.filterMap_congr fun e _ => ?_
  cases he : e.isOpening
  · exact (hg e he).symm
  · rfl

lemma openTrigger_of_isOpening : ∀ e : IoEvent, e.isOpening = false → e.openTrigger = none
  | .trigger .open _ _ _ _ _, h => absurd h (by simp [IoEvent.isOpening])
  | .trigger .close _ _ _ _ _, _ | .dumpOpen _ _ _, _ | .dump _ _ _, _ | .flush _, _
  | .close _, _ | .unlink _, _ | .mkdirP _, _ => rfl

lemma created_of_isOpening : ∀ e : IoEvent, e.isOpening = false → e.created = none
  | .dumpOpen _ _ _, h => absurd h (by simp [IoEvent.isOpening])
  | .trigger _ _ _ _ _ _, _ | .dump _ _ _, _ | .flush _, _
  | .close _, _ | .unlink _, _ | .mkdirP _, _ => rfl

namespace World

lemma openings_of_log {w' : World} {events : List IoEvent} (hlog : w'.log = w.log ++ events)
    (hevents : ∀ e ∈ events, e.isOpening = false) : w'.openings = w.openings := by
  have hnone : events.filter IoEvent.isOpening = [] :=
    List.filter_eq_nil_iff.mpr fun e he => by simp [hevents e he]
  rw [openings, hlog, List.filter_append, hnone, List.append_nil, openings]

lemma openings_dump (via : Via) (f : Handle) (packet : Record) (flushes : List Bool) :
    (w.dump via f packet flushes).openings = w.openings := by
  refine openings_of_log rfl fun e he => ?_
  rcases List.mem_cons.mp he with rfl | he
  · rfl
  · obtain ⟨_, -, rfl⟩ := List.mem_map.mp he
    rfl

lemma openings_rtpDump (i : ℕ) (packet : Record) (b : Bool) :
    (w.rtpDump i packet b).openings = w.openings := by
  unfold rtpDump
  rcases (w.slot i).fPcap with _ | f
  · rfl
  · exact openings_dump _ _ _ _

lemma openings_sipDump (i : ℕ) (packet : Record) (b c : Bool) :
    (w.sipDump i packet b c).openings = w.openings := by
  unfold sipDump
  rcases (w.slot i).fPcap with _ | f
  · rfl
  · exact openings_dump _ _ _ _

lemma openings_fragment (aai : AddrAddrId) (packet : Record) (last b : Bool) :
    (w.fragment aai packet last b).openings = w.openings := by
  unfold fragment
  rcases w.ct.getIpfrag aai with ⟨_ | f, ct⟩
  · rfl
  · cases last <;> exact openings_dump _ _ _ _

lemma openings_cleanup (currtime : ℤ) : (w.cleanup currtime).openings = w.openings := by
  refine openings_of_log rfl fun e he => ?_
  rcases mem_doCleanup he with ⟨f, rfl | rfl⟩ | ⟨path, rfl⟩ | ⟨c, rfl⟩ <;> rfl

lemma openings_openFile (i : ℕ) (callId fn : Bytes) (dir : Option Bytes) :
    (w.openFile host libbsd i callId fn dir).openings = w.openings ++ [.dumpOpen callId fn
      (host.dumpOpen (w.log ++ (dir.map IoEvent.mkdirP).toList) fn)] := by
  rcases dir with _ | d <;>
    simp [openings, openFile, write, IoEvent.isOpening]

/-- The element that `add` takes has been zeroed, and so has the path in it. -/
lemma openings_add (hw : w.ct.UnusedZero) (callId caller callee : Bytes) (time : ℤ) :
    ∃ caller' callee' callId', (w.add callId caller callee time).2.openings =
      w.openings ++ [.trigger .open [] caller' callee' callId' time] := by
  have hslot := w.ct.slot_add callId caller callee time w.ct.addIdx
  rw [if_pos rfl, hw _ w.ct.isUsed_addIdx] at hslot
  obtain ⟨c, hc⟩ : ∃ c, c = CalltableElement.zero.init callId caller callee time := ⟨_, rfl⟩
  have hpath : c.fnPcapStr = [] := by
    have hzero : CalltableElement.zero.fnPcapStr = [] := by decide
    rw [hc]
    exact hzero
  have htrigger : (w.ct.add callId caller callee time).2.2 =
      [.trigger .open [] c.callerStr c.calleeStr c.callIdStr time] := by
    have hevent : (w.ct.add callId caller callee time).2.2 =
        [((w.ct.add callId caller callee time).2.1.slot w.ct.addIdx).triggerEvent .open] := rfl
    rw [hevent, hslot, ← hc, CalltableElement.triggerEvent, hpath, hc]
    rfl
  refine ⟨c.callerStr, c.calleeStr, c.callIdStr, ?_⟩
  rw [openings, add, List.filter_append, htrigger]
  rfl

end World

/-! ### The openings of a packet -/

lemma openings_rtpBranch {ip : ℕ} (f : Flow) (hw : w.ct.TableInv) :
    (rtpBranch o p ip f (rtpLookup o p.mem ip w).2).openings = w.openings := by
  have hlookup : (rtpLookup o p.mem ip w).2.openings = w.openings :=
    congrArg (List.filter IoEvent.isOpening) (rtpLookup_frame hw.unusedZero o p.mem ip).1
  unfold rtpBranch
  split
  · rw [World.openings_rtpDump, hlookup]
  · exact hlookup

lemma openings_sipCall {ip i : ℕ} {msg : SipMessage} :
    (sipCall o p ip i msg w).openings = w.openings := by
  rw [sipCall_eq, World.openings, World.log_recordFrag, ← World.openings, World.openings_sipDump,
    foldl_write_eq]
  rfl

/-- A packet that is no SIP message opens nothing. -/
lemma openings_dispatch_other (host : Host) (hw : s.world.ct.TableInv)
    (hb : ∀ ip msg, branch o p s.world ≠ .sip ip msg) :
    (dispatch o host p s).world.openings = s.world.openings := by
  rw [dispatch_eq]
  rcases hbranch : branch o p s.world with _ | ⟨aai, last⟩ | ⟨ip, f⟩ | ⟨ip, msg⟩
  · rfl
  · exact World.openings_fragment _ _ _ _
  · exact openings_rtpBranch f hw
  · exact absurd hbranch (hb ip msg)

/-- A SIP message opens what finding or adding its call opens. -/
lemma openings_dispatch_sip (host : Host) {ip : ℕ} {msg : SipMessage}
    (hb : branch o p s.world = .sip ip msg) :
    (dispatch o host p s).world.openings = (findOrAdd o host msg p.ts s).2.world.openings := by
  rw [dispatch_eq, hb]
  simp only [Branch.run]
  rcases findOrAdd o host msg p.ts s with ⟨_ | i, t⟩
  · rfl
  · exact openings_sipCall

/-- A call that is added makes one open trigger, with the empty path, and then opens its file. -/
lemma openings_findOrAdd (host : Host) (hw : s.world.ct.TableInv) {msg : SipMessage}
    {callId : Bytes} (ts : ℤ) (hid : msg.callId = some callId)
    (hnew : s.world.ct.findByCallId callId = none) (hmatched : numberFilterMatched o msg) :
    ∃ caller callee callId' es, (findOrAdd o host msg ts s).2.world.openings =
        s.world.openings ++ .trigger .open [] caller callee callId' ts :: es ∧
      es.filterMap IoEvent.openTrigger = [] ∧
      es.filterMap IoEvent.created = (createdFile o host msg callId ts s).toList := by
  obtain ⟨caller, callee, callId', hadd⟩ := World.openings_add hw.unusedZero callId
    msg.caller.toBytes msg.called.toBytes ts
  refine ⟨caller, callee, callId', ?_⟩
  rw [findOrAdd_added hid hnew hmatched host ts]
  obtain ⟨w, hw'⟩ : ∃ w, w = (s.world.add callId msg.caller.toBytes msg.called.toBytes ts).2 :=
    ⟨_, rfl⟩
  rw [← hw'] at hadd ⊢
  rcases newCall_cases o host msg callId ts s.world.ct.addIdx { s with world := w } with
    ⟨hmethod, he⟩ | ⟨-, hskip, he⟩ | ⟨hmethod, hskip, he⟩ <;> rw [he]
  · refine ⟨[], hadd, rfl, ?_⟩
    rw [createdFile, if_neg fun h => hmethod h.1]
    rfl
  · refine ⟨[], hadd, rfl, ?_⟩
    rw [createdFile, if_neg fun h => not_lt.mpr h.2 hskip]
    rfl
  · have hopens : o.methodFilter msg.method ∧ s.callSkipCnt - 1 ≤ 0 := ⟨hmethod, hskip⟩
    rw [createdFile, if_pos hopens, ← hw']
    dsimp only
    generalize fileName o host msg ts = fn
    generalize (if 47 ∈ fn then some (dirname fn) else none) = dir
    refine ⟨[.dumpOpen callId fn (host.dumpOpen (w.log ++ (dir.map IoEvent.mkdirP).toList) fn)],
      ?_, rfl, ?_⟩
    · rw [World.openings_openFile, hadd, List.append_assoc]
      rfl
    · rcases host.dumpOpen (w.log ++ (dir.map IoEvent.mkdirP).toList) fn with _ | f <;> rfl

/-- **What a packet opens.**  Nothing; or it adds a call, which makes one open trigger with the
empty path, and then the file of the call is created or not. -/
lemma openings_dispatch (o : Options) (host : Host) (p : Packet) {s : State}
    (hw : s.world.ct.TableInv) :
    ((dispatch o host p s).world.openings = s.world.openings ∧
        ∀ ip msg callId, branch o p s.world = .sip ip msg → msg.callId = some callId →
          s.world.ct.findByCallId callId = none → ¬numberFilterMatched o msg) ∨
      ∃ ip msg callId caller callee callId' es, branch o p s.world = .sip ip msg ∧
        msg.callId = some callId ∧ s.world.ct.findByCallId callId = none ∧
        numberFilterMatched o msg ∧
        (dispatch o host p s).world.openings =
          s.world.openings ++ .trigger .open [] caller callee callId' p.ts :: es ∧
        es.filterMap IoEvent.openTrigger = [] ∧
        es.filterMap IoEvent.created = (createdFile o host msg callId p.ts s).toList := by
  by_cases hsip : ∃ ip msg, branch o p s.world = .sip ip msg
  · obtain ⟨ip, msg, hb⟩ := hsip
    rw [openings_dispatch_sip host hb, hb]
    by_cases hadds : ∃ callId, msg.callId = some callId ∧
        s.world.ct.findByCallId callId = none ∧ numberFilterMatched o msg
    · obtain ⟨callId, hid, hnew, hmatched⟩ := hadds
      obtain ⟨caller, callee, callId', es, hes⟩ :=
        openings_findOrAdd host hw p.ts hid hnew hmatched
      exact Or.inr ⟨ip, msg, callId, caller, callee, callId', es, rfl, hid, hnew, hmatched, hes⟩
    · left
      constructor
      · rcases hid : msg.callId with _ | callId
        · simp only [findOrAdd, hid]
        · rcases hf : s.world.ct.findByCallId callId with _ | i
          · have hno : ¬numberFilterMatched o msg := fun h => hadds ⟨callId, hid, hf, h⟩
            rw [findOrAdd_refused hid hf hno host p.ts]
          · rw [findOrAdd_found hid hf o host p.ts]
      · rintro _ _ callId ⟨⟩ hid hnew hmatched
        exact hadds ⟨callId, hid, hnew, hmatched⟩
  · refine Or.inl ⟨openings_dispatch_other host hw fun ip msg hb => hsip ⟨ip, msg, hb⟩, ?_⟩
    intro ip msg callId hb
    exact absurd ⟨ip, msg, hb⟩ hsip

/-! ### The match along a run -/

lemma openTriggersMatch_iff_openings :
    OpenTriggersMatch w ↔ (w.openings.filterMap IoEvent.openTrigger).Perm
      (w.openings.filterMap IoEvent.created) := by
  rw [OpenTriggersMatch, filterMap_openings openTrigger_of_isOpening,
    filterMap_openings created_of_isOpening]

/-- A packet keeps the match exactly when a call that it adds gets a file with the empty path. -/
lemma openTriggersMatch_dispatch_iff (hw : s.world.ct.TableInv) (h : OpenTriggersMatch s.world) :
    OpenTriggersMatch (dispatch o host p s).world ↔
      ∀ ip msg callId, branch o p s.world = .sip ip msg → msg.callId = some callId →
        s.world.ct.findByCallId callId = none → numberFilterMatched o msg →
        createdFile o host msg callId p.ts s = some [] := by
  rw [openTriggersMatch_iff_openings] at h ⊢
  rcases openings_dispatch o host p hw with ⟨he, hno⟩ |
    ⟨ip, msg, callId, caller, callee, callId', es, hb, hid, hnew, hmatched, he, htriggers, hfiles⟩
  · rw [he]
    refine iff_of_true h fun ip msg callId hb hid hnew hmatched => ?_
    exact absurd hmatched (hno ip msg callId hb hid hnew)
  · have htrigger : (IoEvent.trigger .open [] caller callee callId' p.ts).openTrigger =
        some [] := rfl
    have hcreated : (IoEvent.trigger .open [] caller callee callId' p.ts).created = none := rfl
    rw [he, List.filterMap_append, List.filterMap_append, (h.append_right _).congr_left,
      List.perm_append_left_iff, List.filterMap_cons_some htrigger, htriggers,
      List.filterMap_cons_none hcreated, hfiles, List.singleton_perm]
    constructor
    · rintro heq _ msg' callId'' hb' hid' - -
      obtain ⟨-, rfl⟩ := Branch.sip.inj (hb.symm.trans hb')
      obtain rfl := Option.some.inj (hid.symm.trans hid')
      exact Option.toList_eq_singleton_iff.mp heq.symm
    · intro hall
      rw [hall ip msg callId hb hid hnew hmatched]
      rfl

lemma openings_afterPass (s : State) (a : Input) :
    (afterPass s a).world.openings = s.world.openings :=
  afterPass_invariant (P := fun v : World => v.openings = s.world.openings) rfl
    fun T _ => World.openings_cleanup T

lemma openTriggersMatch_afterPass (a : Input) :
    OpenTriggersMatch (afterPass s a).world ↔ OpenTriggersMatch s.world := by
  rw [openTriggersMatch_iff_openings, openings_afterPass, ← openTriggersMatch_iff_openings]

/-- **Open triggers and opened files.**  The open triggers match the created files in every state
of a run exactly when every call that the run adds gets a file, and that file has the empty
path. -/
theorem openTriggersMatch_iff (o : Options) (host : Host) (inputs : List Input) :
    (loop o host).Always (fun s => OpenTriggersMatch s.world) o.start inputs ↔
      (loop o host).Along (OpenTriggerCondition o host) o.start inputs := by
  refine Machine.always_iff_along (I := fun s : State => Owns s.world)
    (fun s a _ howns _ _ => howns.loop a) (fun s a _ howns h => ?_)
    (legal_loop o host o.start inputs) (owns_start o) (List.Perm.refl _)
  cases a with
  | packet p =>
    exact openTriggersMatch_dispatch_iff (howns.afterPass (.packet p)).tableInv
      ((openTriggersMatch_afterPass (.packet p)).mpr h)
  | cleanup currtime =>
    exact iff_of_true ((openTriggersMatch_afterPass (.cleanup currtime)).mpr h) trivial

/-- One INVITE, whose file is created: the open trigger is called with the empty path. -/
theorem openTriggersMatch_false :
    let s := (loop Options.raw Host.numbering).run Options.raw.start
      [.packet (.captured 1000 (invite "x"))]
    s.world.log.filterMap IoEvent.created = [ascii "x.pcap"] ∧
      s.world.log.filterMap IoEvent.openTrigger = [[]] ∧ ¬OpenTriggersMatch s.world := by
  intro s
  have hcreated : s.world.log.filterMap IoEvent.created = [ascii "x.pcap"] := by decide +kernel
  have htriggers : s.world.log.filterMap IoEvent.openTrigger = [[]] := by decide +kernel
  refine ⟨hcreated, htriggers, fun h => ?_⟩
  rw [OpenTriggersMatch, hcreated, htriggers, List.singleton_perm] at h
  exact absurd h (by decide)

end PcapSipDump
