import PcapSipDump.Capture.Dumps

/-!
# The branches of the capture loop

Which branch a packet takes is a function of the packet and of the world that it meets
(`branch`), and each branch is one change of the state (`dispatch_eq`).  What a packet dumps and
what it does to the fragment map are read off its branch once (`written_dispatch`,
`ipfrags_dispatch`).
-/

namespace PcapSipDump

open Lib Lib.CString

variable {o : Options} {host : Host} {libbsd : Bool} {w : World} {p : Packet}

/-! ### The branch of a packet -/

/-- The branches of the capture loop, with what the branch works on. -/
inductive Branch where
  /-- The packet is passed over. -/
  | skip
  /-- A fragment other than the first one of its datagram. -/
  | fragment (aai : AddrAddrId) (last : Bool)
  /-- A packet of a registered flow. -/
  | rtp (ip : ℕ) (f : Flow)
  /-- A SIP message. -/
  | sip (ip : ℕ) (msg : SipMessage)

/-- The message that the SIP branch works on. -/
def Branch.message : Branch → Option SipMessage
  | .sip _ msg => some msg
  | _ => none

lemma exists_of_message {b : Branch} {method : Bytes} {callId : Option Bytes}
    (h : b.message.map (fun msg => (msg.method, msg.callId)) = some (method, callId)) :
    ∃ ip msg, b = .sip ip msg ∧ msg.method = method ∧ msg.callId = callId := by
  rcases b with _ | _ | _ | ⟨ip, msg⟩
  · simp [Branch.message] at h
  · simp [Branch.message] at h
  · simp [Branch.message] at h
  · obtain ⟨hm, hid⟩ := Prod.mk.inj (Option.some.inj h)
    exact ⟨ip, msg, rfl, hm, hid⟩

/-- The key and the end mark of a packet that the branches for fragments take. -/
def laterFragment (o : Options) (p : Packet) : Option (AddrAddrId × Bool) :=
  match headerIp o.dlt p.mem with
  | none => none
  | some ip =>
      if isLaterFragment4 p.mem ip then some (addrAddrId4 p.mem ip, isLastFragment4 p.mem ip)
      else if isLaterFragment6 p.mem ip then some (addrAddrId6 p.mem ip, isLastFragment6 p.mem ip)
      else none

lemma laterFragment_eq_none_iff {ip : ℕ} (hip : headerIp o.dlt p.mem = some ip) :
    laterFragment o p = none ↔
      isLaterFragment4 p.mem ip = false ∧ isLaterFragment6 p.mem ip = false := by
  simp only [laterFragment, hip]
  split_ifs <;> simp_all

/-- The branch for an admitted packet. -/
def admittedBranch (o : Options) (p : Packet) (ip : ℕ) (w : World) : Branch :=
  match (rtpLookup o p.mem ip w).1 with
  | some f => .rtp ip f
  | none =>
      match sipMethod (p.mem.drop (dataPos p.mem ip)) with
      | some method => .sip ip (readSip o p.terminate (dataPos p.mem ip) method)
      | none => .skip

/-- The branch that a packet takes. -/
def branch (o : Options) (p : Packet) (w : World) : Branch :=
  match laterFragment o p with
  | some (aai, last) => .fragment aai last
  | none =>
      match headerIp o.dlt p.mem with
      | none => .skip
      | some ip =>
          if isAdmitted o.useTcp o.dlt p.caplen p.mem ip then admittedBranch o p ip w else .skip

/-- What a branch does. -/
def Branch.run (o : Options) (host : Host) (p : Packet) (s : State) : Branch → State
  | .skip => s
  | .fragment aai last =>
      { s with world := s.world.fragment aai p.record last o.optPacketbuffered }
  | .rtp ip f => { s with world := rtpBranch o p ip f (rtpLookup o p.mem ip s.world).2 }
  | .sip ip msg =>
      match findOrAdd o host msg p.ts s with
      | (some i, s) => { s with world := sipCall o p.terminate ip i msg s.world }
      | (none, s) => s

lemma admitted_eq (o : Options) (host : Host) (p : Packet) (ip : ℕ) (s : State) :
    admitted o host p ip s = (admittedBranch o p ip s.world).run o host p s := by
  unfold admitted admittedBranch
  rcases rtpLookup_cases o p.mem ip s.world with he | ⟨f, addr, port, -, -, he⟩
  · -- without a flow the lookups change nothing
    simp only [he]
    rcases sipMethod (p.mem.drop (dataPos p.mem ip)) with _ | method <;> rfl
  · simp only [he, Branch.run]

/-- **A packet does what its branch does.** -/
theorem dispatch_eq (o : Options) (host : Host) (p : Packet) (s : State) :
    dispatch o host p s = (branch o p s.world).run o host p s := by
  unfold dispatch branch laterFragment
  rcases headerIp o.dlt p.mem with _ | ip
  · rfl
  · dsimp only
    by_cases h4 : isLaterFragment4 p.mem ip
    · rw [if_pos h4, if_pos h4]
      rfl
    by_cases h6 : isLaterFragment6 p.mem ip
    · rw [if_neg h4, if_pos h6, if_neg h4, if_pos h6]
      rfl
    rw [if_neg h4, if_neg h6, if_neg h4, if_neg h6]
    by_cases hadm : isAdmitted o.useTcp o.dlt p.caplen p.mem ip
    · rw [if_pos hadm]
      simp only [if_pos hadm]
      exact admitted_eq o host p ip s
    · rw [if_neg hadm]
      simp only [if_neg hadm]
      rfl

/-- What the branch of a fragment is does not depend on the world. -/
lemma branch_of_laterFragment {aai : AddrAddrId} {last : Bool}
    (h : laterFragment o p = some (aai, last)) (w : World) :
    branch o p w = .fragment aai last := by
  simp only [branch, h]

/-- The branch of an admitted packet that is no later fragment. -/
lemma branch_of_admitted {ip : ℕ} (hlater : laterFragment o p = none)
    (hip : headerIp o.dlt p.mem = some ip) (hadm : isAdmitted o.useTcp o.dlt p.caplen p.mem ip)
    (w : World) : branch o p w = admittedBranch o p ip w := by
  simp only [branch, hlater, hip, if_pos hadm]

/-- An admitted packet for which a flow is found is a packet of this flow. -/
lemma branch_of_rtpLookup {ip : ℕ} {f : Flow} (hlater : laterFragment o p = none)
    (hip : headerIp o.dlt p.mem = some ip) (hadm : isAdmitted o.useTcp o.dlt p.caplen p.mem ip)
    (hfound : (rtpLookup o p.mem ip w).1 = some f) : branch o p w = .rtp ip f := by
  rw [branch_of_admitted hlater hip hadm, admittedBranch, hfound]

/-- **The branches.**  A packet is passed over, or is a later fragment, or is admitted and then
either a flow is found for it, or it is a message. -/
lemma branch_cases (o : Options) (p : Packet) (w : World) :
    branch o p w = .skip ∨
      (∃ aai last, laterFragment o p = some (aai, last) ∧ branch o p w = .fragment aai last) ∨
      ∃ ip, laterFragment o p = none ∧ headerIp o.dlt p.mem = some ip ∧
        isAdmitted o.useTcp o.dlt p.caplen p.mem ip ∧
        ((∃ f, (rtpLookup o p.mem ip w).1 = some f ∧ branch o p w = .rtp ip f) ∨
          (rtpLookup o p.mem ip w = (none, w) ∧
            ∃ method, sipMethod (p.mem.drop (dataPos p.mem ip)) = some method ∧
              branch o p w = .sip ip (readSip o p.terminate (dataPos p.mem ip) method))) := by
  simp only [branch]
  rcases hl : laterFragment o p with _ | ⟨aai, last⟩
  · rcases hip : headerIp o.dlt p.mem with _ | ip
    · exact Or.inl rfl
    by_cases hadm : isAdmitted o.useTcp o.dlt p.caplen p.mem ip
    · simp only [if_pos hadm, admittedBranch]
      rcases rtpLookup_cases o p.mem ip w with he | ⟨f, addr, port, -, -, he⟩
      · rcases hm : sipMethod (p.mem.drop (dataPos p.mem ip)) with _ | method
        · left
          simp only [he]
        · refine Or.inr (Or.inr ⟨ip, trivial, rfl, hadm, Or.inr ⟨he, method, hm, ?_⟩⟩)
          simp only [he]
      · refine Or.inr (Or.inr ⟨ip, trivial, rfl, hadm, Or.inl ⟨f, ?_, ?_⟩⟩)
        · rw [he]
        · simp only [he]
    · left
      simp only [if_neg hadm]
  · exact Or.inr (Or.inl ⟨aai, last, rfl, rfl⟩)

lemma laterFragment_of_branch {aai : AddrAddrId} {last : Bool}
    (h : branch o p w = .fragment aai last) : laterFragment o p = some (aai, last) := by
  rcases branch_cases o p w with he | ⟨aai', last', hl, he⟩ |
    ⟨ip, -, -, -, ⟨f, -, he⟩ | ⟨-, method, -, he⟩⟩ <;> rw [he] at h
  · cases h
  · obtain ⟨rfl, rfl⟩ := Branch.fragment.inj h
    exact hl
  · cases h
  · cases h

/-- In the branch of the SIP part the packet is no later fragment, neither lookup has found a flow,
and the message is the one in the payload. -/
lemma of_branch_sip {ip : ℕ} {msg : SipMessage} (h : branch o p w = .sip ip msg) :
    laterFragment o p = none ∧ headerIp o.dlt p.mem = some ip ∧
      isAdmitted o.useTcp o.dlt p.caplen p.mem ip ∧ rtpLookup o p.mem ip w = (none, w) ∧
      ∃ method, sipMethod (p.mem.drop (dataPos p.mem ip)) = some method ∧
        msg = readSip o p.terminate (dataPos p.mem ip) method := by
  rcases branch_cases o p w with he | ⟨aai, last, -, he⟩ |
    ⟨ip', hl, hip, hadm, ⟨f, -, he⟩ | ⟨hlookup, method, hm, he⟩⟩ <;> rw [he] at h
  · cases h
  · cases h
  · cases h
  · obtain ⟨rfl, rfl⟩ := Branch.sip.inj h
    exact ⟨hl, hip, hadm, hlookup, method, hm, rfl⟩

/-- In the branch of the RTP part the packet is no later fragment, and the flow is the one that the
lookups find. -/
lemma of_branch_rtp {ip : ℕ} {f : Flow} (h : branch o p w = .rtp ip f) :
    laterFragment o p = none ∧ headerIp o.dlt p.mem = some ip ∧
      isAdmitted o.useTcp o.dlt p.caplen p.mem ip ∧ (rtpLookup o p.mem ip w).1 = some f := by
  rcases branch_cases o p w with he | ⟨aai, last, -, he⟩ |
    ⟨ip', hl, hip, hadm, ⟨g, hg, he⟩ | ⟨-, method, -, he⟩⟩ <;> rw [he] at h
  · cases h
  · cases h
  · obtain ⟨rfl, rfl⟩ := Branch.rtp.inj h
    exact ⟨hl, hip, hadm, hg⟩
  · cases h

/-! ### What the parts of the branches do -/

/-- The key under which the SIP branch records the file of a packet's call. -/
def recordKey (m : Bytes) (ip : ℕ) : Option AddrAddrId :=
  if isFirstFragment4 m ip then some (addrAddrId4 m ip)
  else if isFragment6 m ip then some (addrAddrId6 m ip)
  else none

/-- The lookups of a packet write nothing, keep the calls and their files, and leave the fragment
map alone. -/
lemma rtpLookup_frame (hw : w.ct.UnusedZero) (o : Options) (m : Bytes) (ip : ℕ) :
    (rtpLookup o m ip w).2.log = w.log ∧ (rtpLookup o m ip w).2.ct.ipfrags = w.ct.ipfrags ∧
      ∀ j, SameCall (w.slot j) ((rtpLookup o m ip w).2.slot j) ∧
        ((rtpLookup o m ip w).2.slot j).rtpmapEvent = (w.slot j).rtpmapEvent := by
  rcases rtpLookup_cases o m ip w with he | ⟨f, addr, port, -, hfound, he⟩
  · rw [he]
    exact ⟨rfl, rfl, fun j => ⟨SameCall.refl _, rfl⟩⟩
  · rw [he]
    obtain ⟨i, k⟩ := f
    have hu : (w.ct.slot i).isUsed := hw.used_of_findFlow hfound
    have hct : (w.findIpPortSsrc addr port (packetSsrc o m ip)).2.ct =
        w.ct.modify i (CalltableElement.setSsrc k (packetSsrc o m ip)) := by
      simp only [World.findIpPortSsrc, Calltable.findIpPortSsrc, hfound]
    refine ⟨rfl, by rw [hct]; rfl, fun j => ⟨sameCall_findIpPortSsrc hw _ _ _ j, ?_⟩⟩
    rw [World.slot, hct, Calltable.slot_modify_of_used hu]
    split <;> rfl

/-- The assignments of the SIP branch to the element of a known call. -/
def ElementWrite.IsSip (e : ElementWrite) : Prop := e = .bye ∨ e.IsSdp

/-- What a write to an element keeps, a list of writes keeps. -/
lemma foldl_apply_invariant {P : CalltableElement → Prop} {es : List ElementWrite}
    (hes : ∀ e ∈ es, ∀ c, P c → P (e.apply c)) {c : CalltableElement} (hc : P c) :
    P (es.foldl (fun c e => e.apply c) c) :=
  List.foldlRecOn es _ hc fun c hc e he => hes e he c hc

/-- Writes other than that of a file keep the call and its file. -/
lemma SameCall.foldl_apply {es : List ElementWrite} (hes : ∀ e ∈ es, ∀ f fnPcap, e ≠ .file f fnPcap)
    (c : CalltableElement) : SameCall c (es.foldl (fun c e => e.apply c) c) :=
  foldl_apply_invariant (P := SameCall c)
    (fun e he _ hc => hc.trans (SameCall.apply (hes e he))) (SameCall.refl c)

lemma ElementWrite.ne_file_of_rtp {es : List ElementWrite} {ts : ℤ}
    (hes : es = [] ∨ es = [.rtp ts]) : ∀ e ∈ es, ∀ f fnPcap, e ≠ .file f fnPcap := by
  rcases hes with rfl | rfl
  · simp
  · simp

lemma ElementWrite.IsSip.ne_file {es : List ElementWrite} (hes : ∀ e ∈ es, e.IsSip) :
    ∀ e ∈ es, ∀ f fnPcap, e ≠ .file f fnPcap := by
  rintro e he f fnPcap rfl
  rcases hes _ he with h | h
  · cases h
  · exact h

/-- The assignments to one element are one change of it. -/
lemma foldl_write_eq (es : List ElementWrite) (i : ℕ) (w : World) :
    es.foldl (fun w e => w.write i e) w =
      { w with ct := w.ct.modify i fun c => es.foldl (fun c e => e.apply c) c } := by
  induction es generalizing w with
  | nil =>
    have hid : w.ct.modify i (fun c => c) = w.ct := Calltable.modify_eq_self rfl
    simp only [List.foldl_nil, hid]
  | cons e es ih =>
    rw [List.foldl_cons, ih]
    simp only [World.write, Calltable.modify, List.modify_modify_eq, List.foldl_cons]
    rfl

/-- The assignments to one element change this element only. -/
lemma slot_foldl_write {i : ℕ} (hu : (w.slot i).isUsed) (es : List ElementWrite) (j : ℕ) :
    (es.foldl (fun w e => w.write i e) w).slot j =
      if j = i then es.foldl (fun c e => e.apply c) (w.slot j) else w.slot j := by
  rw [foldl_write_eq]
  exact Calltable.slot_modify_of_used hu _ j

/-- The assignments of the SIP branch for a message. -/
def SipMessage.writes (msg : SipMessage) : List ElementWrite :=
  (if msg.isBye then [.bye] else []) ++ msg.body

lemma SipMessage.isSip_writes {msg : SipMessage} (hbody : ∀ e ∈ msg.body, e.IsSdp) :
    ∀ e ∈ msg.writes, e.IsSip := by
  intro e he
  rcases List.mem_append.mp he with he | he
  · split at he
    · exact Or.inl (List.mem_singleton.mp he)
    · exact absurd he List.not_mem_nil
  · exact Or.inr (hbody e he)

/-- Recording the `f_pcap` of an element for a first fragment. -/
def World.recordFrag (w : World) (k : Option AddrAddrId) (i : ℕ) : World :=
  match k with
  | some k => w.addIpfrag k i
  | none => w

@[simp] lemma World.log_recordFrag (k : Option AddrAddrId) (i : ℕ) :
    (w.recordFrag k i).log = w.log := by
  cases k <;> rfl

@[simp] lemma World.slot_recordFrag (k : Option AddrAddrId) (i j : ℕ) :
    (w.recordFrag k i).slot j = w.slot j := by
  cases k <;> rfl

lemma World.ipfrags_recordFrag (k : Option AddrAddrId) (i : ℕ) :
    (w.recordFrag k i).ct.ipfrags = (match k with
      | some k => Function.update w.ct.ipfrags k (some (w.slot i).fPcap)
      | none => w.ct.ipfrags) := by
  cases k <;> rfl

/-- **The SIP branch for a call** makes the assignments of the message, dumps the packet, and
records the file of the call when the packet is a first fragment. -/
lemma sipCall_eq (o : Options) (p : Packet) (ip i : ℕ) (msg : SipMessage) (w : World) :
    sipCall o p ip i msg w =
      ((msg.writes.foldl (fun w e => w.write i e) w).sipDump i p.record msg.isBye
        o.optPacketbuffered).recordFrag (recordKey p.mem ip) i := by
  have hbye : (if msg.isBye then w.write i .bye else w) =
      (if msg.isBye then [ElementWrite.bye] else []).foldl (fun w e => w.write i e) w := by
    split <;> rfl
  have hrecord : ∀ v : World, (if isFragment6 p.mem ip then
      (if isFirstFragment4 p.mem ip then v.addIpfrag (addrAddrId4 p.mem ip) i
        else v).addIpfrag (addrAddrId6 p.mem ip) i
      else if isFirstFragment4 p.mem ip then v.addIpfrag (addrAddrId4 p.mem ip) i else v) =
      v.recordFrag (recordKey p.mem ip) i := by
    intro v
    unfold recordKey
    by_cases h4 : isFirstFragment4 p.mem ip
    · -- a packet has one version only
      have h6 : isFragment6 p.mem ip = false := by
        rw [isFirstFragment4, Bool.and_eq_true, decide_eq_true_eq] at h4
        exact isFragment6_eq_false h4.1
      simp only [h4, h6, if_true, Bool.false_eq_true, if_false, World.recordFrag]
    · by_cases h6 : isFragment6 p.mem ip
      · simp only [h4, h6, Bool.false_eq_true, if_true, if_false, World.recordFrag]
      · simp only [h4, h6, Bool.false_eq_true, if_false, World.recordFrag]
  rw [SipMessage.writes, List.foldl_append, ← hbye, ← hrecord]
  rfl

/-- The SIP branch assigns to the element of its call only. -/
lemma slot_sipCall {ip i : ℕ} {msg : SipMessage} (hu : (w.slot i).isUsed) (j : ℕ) :
    (sipCall o p ip i msg w).slot j =
      if j = i then msg.writes.foldl (fun c e => e.apply c) (w.slot j) else w.slot j := by
  rw [sipCall_eq, World.slot_recordFrag, World.slot, World.ct_sipDump]
  exact slot_foldl_write hu msg.writes j

/-- The SIP branch for a call dumps the packet into the file of the call, if there is one, keeps
all calls and their files, and records the file when the packet is a first fragment. -/
lemma sipCall_frame (o : Options) (p : Packet) (ip : ℕ) {i : ℕ} {msg : SipMessage}
    (hbody : ∀ e ∈ msg.body, e.IsSdp) (hu : (w.slot i).isUsed) :
    (sipCall o p ip i msg w).written =
        w.written ++ (w.slot i).fPcap.toList.map (fun f => (.sip i, f, p.record)) ∧
      (sipCall o p ip i msg w).ct.ipfrags = (match recordKey p.mem ip with
        | some k => Function.update w.ct.ipfrags k (some (w.slot i).fPcap)
        | none => w.ct.ipfrags) ∧
      ∀ j, SameCall (w.slot j) ((sipCall o p ip i msg w).slot j) := by
  have hes := ElementWrite.IsSip.ne_file (SipMessage.isSip_writes hbody)
  have hsame : ∀ j, SameCall (w.slot j) ((sipCall o p ip i msg w).slot j) := by
    intro j
    rw [slot_sipCall hu]
    split
    · exact SameCall.foldl_apply hes _
    · exact SameCall.refl _
  obtain ⟨v, hv⟩ : ∃ v, v = msg.writes.foldl (fun w e => w.write i e) w := ⟨_, rfl⟩
  have hold : v.log = w.log ∧ v.ct.ipfrags = w.ct.ipfrags := by
    rw [hv, foldl_write_eq]
    exact ⟨rfl, rfl⟩
  have hfile : (v.slot i).fPcap = (w.slot i).fPcap := by
    rw [hv, slot_foldl_write hu, if_pos rfl]
    exact (SameCall.foldl_apply hes _).fPcap
  refine ⟨?_, ?_, hsame⟩
  · rw [sipCall_eq, ← hv, World.written, World.log_recordFrag, ← World.written,
      World.written_sipDump, hfile, World.written, hold.1, ← World.written]
  · rw [sipCall_eq, ← hv, World.ipfrags_recordFrag, World.slot, World.ct_sipDump, ← World.slot,
      hfile, hold.2]

/-- Finding or adding a call dumps nothing and leaves the fragment map alone. -/
lemma findOrAdd_frame (o : Options) (host : Host) (msg : SipMessage) (ts : ℤ) (s : State) :
    (findOrAdd o host msg ts s).2.world.written = s.world.written ∧
      (findOrAdd o host msg ts s).2.world.ct.ipfrags = s.world.ct.ipfrags := by
  rcases findOrAdd_cases o host msg ts s with he | ⟨callId, -, ⟨i, -, he⟩ | ⟨-, he⟩⟩
  · rw [he]
    exact ⟨rfl, rfl⟩
  · rw [he]
    exact ⟨rfl, rfl⟩
  · rw [he]
    have hadd := s.world.written_add callId msg.caller.toBytes msg.called.toBytes ts
    rcases newCall_cases o host msg callId ts s.world.ct.addIdx { s with
        world := (s.world.add callId msg.caller.toBytes msg.called.toBytes ts).2 } with
      ⟨-, hnew⟩ | ⟨-, -, hnew⟩ | ⟨-, -, hnew⟩ <;> rw [hnew]
    · exact ⟨hadd, rfl⟩
    · exact ⟨hadd, rfl⟩
    · exact ⟨(World.written_openFile _ _ _ _).trans hadd, rfl⟩

/-- The element that is found or added is in use. -/
lemma used_findOrAdd (o : Options) (host : Host) (msg : SipMessage) (ts : ℤ) {s : State}
    (hw : s.world.ct.TableInv) (i : ℕ) (hi : (findOrAdd o host msg ts s).1 = some i) :
    ((findOrAdd o host msg ts s).2.world.slot i).isUsed := by
  have hperforms : Performs host o.libbsd { ts := ts, len := 0, bytes := [] } s.world
      (findOrAdd o host msg ts s).2.world ∧ ∀ i, (findOrAdd o host msg ts s).1 = some i →
        ((findOrAdd o host msg ts s).2.world.slot i).isUsed := performs_findOrAdd hw
  exact hperforms.2 i hi

/-- What a branch dumps. -/
def Branch.dumps (o : Options) (host : Host) (p : Packet) (s : State) :
    Branch → List (Via × Handle × Record)
  | .skip => []
  | .fragment aai _ =>
      (s.world.ct.getIpfrag aai).1.toList.map fun f => (.ipfrag aai, f, p.record)
  | .rtp ip g =>
      if savesPayload o (p.mem.drop (dataPos p.mem ip)) (s.world.slot g.1) then
        (s.world.slot g.1).fPcap.toList.map fun f => (.rtp g.1, f, p.record)
      else []
  | .sip _ msg =>
      match findOrAdd o host msg p.ts s with
      | (some i, s) =>
          (s.world.slot i).fPcap.toList.map fun f => (.sip i, f, p.terminate.record)
      | (none, _) => []

/-- The change of the fragment map by a branch. -/
def Branch.ipfrags (o : Options) (host : Host) (p : Packet) (s : State) :
    Branch → AddrAddrId → Option (Option Handle)
  | .fragment aai last =>
      match s.world.ct.ipfrags aai with
      | some (some _) =>
          if last then Function.update s.world.ct.ipfrags aai none else s.world.ct.ipfrags
      | _ => Function.update s.world.ct.ipfrags aai (some none)
  | .sip ip msg =>
      match findOrAdd o host msg p.ts s, recordKey p.terminate.mem ip with
      | (some i, s'), some k =>
          Function.update s.world.ct.ipfrags k (some (s'.world.slot i).fPcap)
      | _, _ => s.world.ct.ipfrags
  | _ => s.world.ct.ipfrags

/-- The message that the SIP branch works on leads to no assignment but those of `parse_sdp`. -/
lemma body_of_branch_sip {ip : ℕ} {msg : SipMessage} (h : branch o p w = .sip ip msg) :
    ∀ e ∈ msg.body, e.IsSdp := by
  obtain ⟨-, -, -, -, method, -, rfl⟩ := of_branch_sip h
  exact parseBody_isSdp

lemma ipfrags_fragment (w : World) (aai : AddrAddrId) (packet : Record) (last b : Bool) :
    (w.fragment aai packet last b).ct.ipfrags = (match w.ct.ipfrags aai with
      | some (some _) => if last then Function.update w.ct.ipfrags aai none else w.ct.ipfrags
      | _ => Function.update w.ct.ipfrags aai (some none)) := by
  unfold World.fragment Calltable.getIpfrag
  rcases hf : w.ct.ipfrags aai with _ | _ | f
  · rfl
  · -- the map holds NULL under the key already
    exact (Function.update_eq_self_iff.mpr hf.symm).symm
  · cases last <;> rfl

/-- **What a packet dumps** is what its branch dumps, after what has been dumped before. -/
theorem written_dispatch (o : Options) (host : Host) (p : Packet) {s : State}
    (hw : s.world.ct.TableInv) :
    (dispatch o host p s).world.written =
      s.world.written ++ (branch o p s.world).dumps o host p s := by
  rw [dispatch_eq]
  rcases hb : branch o p s.world with _ | ⟨aai, last⟩ | ⟨ip, f⟩ | ⟨ip, msg⟩
  · exact (List.append_nil _).symm
  · exact World.written_fragment _ _ _ _
  · obtain ⟨hlog, -, hslot⟩ := rtpLookup_frame hw.unusedZero o p.mem ip
    have hsaves : ∀ data, savesPayload o data ((rtpLookup o p.mem ip s.world).2.slot f.1) =
        savesPayload o data (s.world.slot f.1) := by
      intro data
      rw [savesPayload, (hslot f.1).2, savesPayload]
    have hwritten : (rtpLookup o p.mem ip s.world).2.written = s.world.written := by
      rw [World.written, hlog, World.written]
    simp only [Branch.run, Branch.dumps, rtpBranch, hsaves]
    split
    · rw [World.written_rtpDump, (hslot f.1).1.fPcap, hwritten]
    · rw [hwritten, List.append_nil]
  · have hfind := (findOrAdd_frame o host msg p.ts s).1
    have hused := used_findOrAdd o host msg p.ts hw
    rcases heq : findOrAdd o host msg p.ts s with ⟨_ | i, s'⟩
    · simp only [Branch.run, Branch.dumps, heq, List.append_nil]
      rw [heq] at hfind
      exact hfind
    · rw [heq] at hfind hused
      simp only [Branch.run, Branch.dumps, heq]
      rw [(sipCall_frame o p.terminate ip (body_of_branch_sip hb) (hused i rfl)).1, hfind]

/-- **What a packet does to the fragment map** is what its branch does. -/
theorem ipfrags_dispatch (o : Options) (host : Host) (p : Packet) {s : State}
    (hw : s.world.ct.TableInv) :
    (dispatch o host p s).world.ct.ipfrags = (branch o p s.world).ipfrags o host p s := by
  rw [dispatch_eq]
  rcases hb : branch o p s.world with _ | ⟨aai, last⟩ | ⟨ip, f⟩ | ⟨ip, msg⟩
  · rfl
  · exact ipfrags_fragment _ _ _ _ _
  · obtain ⟨-, hfrags, -⟩ := rtpLookup_frame hw.unusedZero o p.mem ip
    simp only [Branch.run, Branch.ipfrags, rtpBranch]
    split
    · rw [World.ct_rtpDump]
      split <;> exact hfrags
    · exact hfrags
  · have hfind := (findOrAdd_frame o host msg p.ts s).2
    have hused := used_findOrAdd o host msg p.ts hw
    rcases heq : findOrAdd o host msg p.ts s with ⟨_ | i, s'⟩
    · rw [heq] at hfind
      simp only [Branch.run, Branch.ipfrags, heq]
      exact hfind
    · rw [heq] at hfind hused
      simp only [Branch.run, Branch.ipfrags, heq]
      rw [(sipCall_frame o p.terminate ip (body_of_branch_sip hb) (hused i rfl)).2.1]
      rcases recordKey p.terminate.mem ip with _ | k
      · exact hfind
      · exact congrArg (Function.update · k _) hfind

/-! ### What a packet can do to an element -/

/-- Finding or adding a call leaves the elements alone, but for the one of a call that is added. -/
lemma slot_findOrAdd (o : Options) (host : Host) (msg : SipMessage) (ts : ℤ) (s : State) (j : ℕ) :
    (findOrAdd o host msg ts s).2.world.slot j = s.world.slot j ∨
      ∃ callId f fnPcap, msg.callId = some callId ∧ s.world.ct.findByCallId callId = none ∧
        j = s.world.ct.addIdx ∧ (findOrAdd o host msg ts s).1 = some j ∧
        (f ≠ none → o.methodFilter msg.method) ∧
        (findOrAdd o host msg ts s).2.world.slot j = (ElementWrite.file f fnPcap).apply
          ((s.world.slot j).init callId msg.caller.toBytes msg.called.toBytes ts) := by
  rcases findOrAdd_cases o host msg ts s with he | ⟨callId, hid, ⟨i, hf, he⟩ | ⟨hf, he⟩⟩
  · exact Or.inl (by rw [he])
  · exact Or.inl (by rw [he])
  · obtain ⟨w₁, hw₁⟩ : ∃ v, v = (s.world.add callId msg.caller.toBytes msg.called.toBytes ts).2 :=
      ⟨_, rfl⟩
    have hu : (w₁.slot s.world.ct.addIdx).isUsed := by
      rw [hw₁]
      exact (s.world.slot_added callId _ _ ts).1
    have hadd : w₁.slot j = if j = s.world.ct.addIdx then
        (s.world.slot j).init callId msg.caller.toBytes msg.called.toBytes ts
        else s.world.slot j := by
      rw [hw₁]
      exact s.world.ct.slot_add callId _ _ ts j
    -- whatever `newCall` decides, it assigns `f_pcap` and `fn_pcap` of the new element
    have hfile : ∃ f fnPcap, (f ≠ none → o.methodFilter msg.method) ∧
        ∀ k, (findOrAdd o host msg ts s).2.world.slot k =
          if k = s.world.ct.addIdx then (ElementWrite.file f fnPcap).apply (w₁.slot k)
          else w₁.slot k := by
      rw [he, ← hw₁]
      rcases newCall_cases o host msg callId ts s.world.ct.addIdx { s with world := w₁ } with
        ⟨-, hnew⟩ | ⟨hmethod, -, hnew⟩ | ⟨hmethod, -, hnew⟩ <;> rw [hnew]
      · exact ⟨none, _, fun h => absurd rfl h, World.slot_write hu _⟩
      · exact ⟨none, _, fun h => absurd rfl h, World.slot_write hu _⟩
      · exact ⟨_, _, fun _ => hmethod, World.slot_write (w := World.mk w₁.ct _) hu _⟩
    obtain ⟨f, fnPcap, hmethod, hslot⟩ := hfile
    by_cases hj : j = s.world.ct.addIdx
    · refine Or.inr ⟨callId, f, fnPcap, hid, hf, hj, ?_, hmethod, ?_⟩
      · rw [he, hj]
      · rw [hslot, if_pos hj, hadd, if_pos hj]
    · left
      rw [hslot, if_neg hj, hadd, if_neg hj]

/-- The element that is found or added is the one of the message's call. -/
lemma key_findOrAdd (o : Options) (host : Host) {msg : SipMessage} (ts : ℤ) {s : State}
    (hw : s.world.ct.TableInv) {callId : Bytes} (hid : msg.callId = some callId) {i : ℕ}
    (hi : (findOrAdd o host msg ts s).1 = some i) :
    ((findOrAdd o host msg ts s).2.world.slot i).isUsed ∧
      ((findOrAdd o host msg ts s).2.world.slot i).key = keyOf callId := by
  rcases findOrAdd_cases o host msg ts s with he | ⟨callId', hid', ⟨k, hf, he⟩ | ⟨hf, he⟩⟩
  · rw [he] at hi
    exact absurd hi (by simp)
  · obtain rfl : callId' = callId := Option.some.inj (hid'.symm.trans hid)
    rw [he] at hi ⊢
    obtain rfl : k = i := Option.some.inj hi
    exact hw.findByCallId_eq_some_iff.mp hf
  · obtain rfl : callId' = callId := Option.some.inj (hid'.symm.trans hid)
    rcases slot_findOrAdd o host msg ts s i with hsame | ⟨c, f, fnPcap, hc, -, -, -, -, hslot⟩
    · -- the element that is added was not in use
      have hidx : s.world.ct.addIdx = i := by
        rw [he] at hi
        exact Option.some.inj hi
      have hused := used_findOrAdd o host msg ts hw i hi
      rw [hsame, ← hidx] at hused
      exact absurd hused (by rw [World.slot, s.world.ct.isUsed_addIdx]; decide)
    · obtain rfl : c = callId' := Option.some.inj (hc.symm.trans hid')
      rw [hslot]
      exact ⟨by rw [ElementWrite.isUsed_apply]; rfl, by
        rw [ElementWrite.key_apply, CalltableElement.key_init]⟩

/-- The RTP branch for a flow that the lookups have found records the SSRC, and may count the
packet. -/
lemma slot_rtpBranch (hw : w.ct.UnusedZero) {ip : ℕ} {f : Flow}
    (hfound : (rtpLookup o p.mem ip w).1 = some f) :
    ∃ es : List ElementWrite, (es = [] ∨ es = [.rtp p.ts]) ∧
      ∀ i, (rtpBranch o p ip f (rtpLookup o p.mem ip w).2).slot i =
        if i = f.1 then es.foldl (fun c e => e.apply c)
          ((w.slot i).setSsrc f.2 (packetSsrc o p.mem ip))
        else w.slot i := by
  rcases rtpLookup_cases o p.mem ip w with he | ⟨⟨k, j⟩, addr, port, -, hflow, he⟩
  · rw [he] at hfound
    exact absurd hfound (by simp)
  rw [he] at hfound
  obtain rfl : (k, j) = f := Option.some.inj hfound
  have hu : (w.ct.slot k).isUsed := hw.used_of_findFlow hflow
  obtain ⟨w₁, hw₁⟩ : ∃ v, v = (rtpLookup o p.mem ip w).2 := ⟨_, rfl⟩
  have hset : ∀ i, w₁.slot i = if i = k then
      (w.slot i).setSsrc j (packetSsrc o p.mem ip) else w.slot i := by
    intro i
    rw [hw₁, he]
    simp only [World.findIpPortSsrc, Calltable.findIpPortSsrc, hflow, World.slot]
    exact Calltable.slot_modify_of_used hu _ i
  have hused : (w₁.slot k).isUsed := by
    rw [hset, if_pos rfl]
    exact hu
  -- a packet that is not saved, or for which there is no file, is not counted
  have hkeep : ∀ i, w₁.slot i = if i = k then ([] : List ElementWrite).foldl
      (fun c e => e.apply c) ((w.slot i).setSsrc j (packetSsrc o p.mem ip)) else w.slot i := hset
  rw [← hw₁]
  simp only [rtpBranch]
  split
  · rcases hp : (w₁.slot k).fPcap with _ | f
    · refine ⟨[], Or.inl rfl, fun i => ?_⟩
      rw [World.rtpDump, hp]
      exact hkeep i
    · refine ⟨[.rtp p.ts], Or.inr rfl, fun i => ?_⟩
      have hwrite := Calltable.slot_modify_of_used hused (ElementWrite.rtp p.ts).apply i
      simp only [World.slot, World.ct_rtpDump, hp, reduceCtorEq, if_false]
      have hold := hset i
      rw [World.slot] at hold
      refine hwrite.trans ?_
      rw [hold]
      split <;> rfl
  · exact ⟨[], Or.inl rfl, hkeep⟩

/-- **What a packet can do to an element.**  It makes assignments of the SIP branch, if any; or the
lookups have found a flow of the element, whose SSRC is recorded and whose packet may be counted;
or the element is given to the new call of a SIP message, with a file or without. -/
theorem slot_dispatch (o : Options) (host : Host) (p : Packet) {s : State}
    (hw : s.world.ct.TableInv) (i : ℕ) :
    (∃ es : List ElementWrite, (∀ e ∈ es, e.IsSip) ∧
        (dispatch o host p s).world.slot i = es.foldl (fun c e => e.apply c) (s.world.slot i)) ∨
      (∃ ip j, ∃ es : List ElementWrite, branch o p s.world = .rtp ip (i, j) ∧
        (es = [] ∨ es = [.rtp p.ts]) ∧
        (dispatch o host p s).world.slot i = es.foldl (fun c e => e.apply c)
          ((s.world.slot i).setSsrc j (packetSsrc o p.mem ip))) ∨
      ∃ ip msg callId f fnPcap, ∃ es : List ElementWrite, branch o p s.world = .sip ip msg ∧
        msg.callId = some callId ∧ s.world.ct.findByCallId callId = none ∧
        i = s.world.ct.addIdx ∧ (findOrAdd o host msg p.ts s).1 = some i ∧
        (f ≠ none → o.methodFilter msg.method) ∧ (∀ e ∈ es, e.IsSip) ∧
        (dispatch o host p s).world.slot i = es.foldl (fun c e => e.apply c)
          ((ElementWrite.file f fnPcap).apply
            ((s.world.slot i).init callId msg.caller.toBytes msg.called.toBytes p.ts)) := by
  rw [dispatch_eq]
  rcases hb : branch o p s.world with _ | ⟨aai, last⟩ | ⟨ip, f⟩ | ⟨ip, msg⟩
  · exact Or.inl ⟨[], by simp, rfl⟩
  · refine Or.inl ⟨[], by simp, ?_⟩
    simp only [Branch.run, World.slot, Calltable.slot, World.table_fragment, List.foldl_nil]
  · obtain ⟨-, -, -, hfound⟩ := of_branch_rtp hb
    obtain ⟨es, hes, hslot⟩ := slot_rtpBranch (o := o) hw.unusedZero hfound
    by_cases hi : i = f.1
    · subst hi
      exact Or.inr (Or.inl ⟨ip, f.2, es, rfl, hes, (hslot f.1).trans (if_pos rfl)⟩)
    · exact Or.inl ⟨[], by simp, (hslot i).trans (if_neg hi)⟩
  · have hslot := slot_findOrAdd o host msg p.ts s i
    have hused := used_findOrAdd o host msg p.ts hw
    rcases heq : findOrAdd o host msg p.ts s with ⟨_ | k, s'⟩
    · rw [heq] at hslot
      rcases hslot with hslot | ⟨_, _, _, -, -, -, hk, -, -⟩
      · refine Or.inl ⟨[], by simp, ?_⟩
        simp only [Branch.run, heq]
        exact hslot
      · exact absurd hk (by simp)
    · rw [heq] at hslot hused
      have hes := SipMessage.isSip_writes (body_of_branch_sip hb)
      have hcall : ((Branch.sip ip msg).run o host p s).world.slot i =
          if i = k then msg.writes.foldl (fun c e => e.apply c) (s'.world.slot i)
          else s'.world.slot i := by
        simp only [Branch.run, heq]
        exact slot_sipCall (hused k rfl) i
      rcases hslot with hslot | ⟨callId, f, fnPcap, hid, hnone, hidx, hk, hmethod, hslot⟩
      · left
        by_cases hi : i = k
        · exact ⟨msg.writes, hes, by rw [hcall, if_pos hi, hslot]⟩
        · exact ⟨[], by simp, by rw [hcall, if_neg hi, hslot]; rfl⟩
      · refine Or.inr (Or.inr ⟨ip, msg, callId, f, fnPcap, msg.writes, rfl, hid, hnone, hidx, ?_,
          hmethod, hes, ?_⟩)
        · rw [heq]
          exact hk
        · have hi : i = k := (Option.some.inj hk).symm
          rw [hcall, if_pos hi, hslot]

/-- The world after a message whose call has been found or added. -/
lemma dispatch_sip {s t : State} {ip i : ℕ} {msg : SipMessage}
    (hb : branch o p s.world = .sip ip msg) (hfind : findOrAdd o host msg p.ts s = (some i, t)) :
    (dispatch o host p s).world = sipCall o p.terminate ip i msg t.world := by
  rw [dispatch_eq, hb]
  simp only [Branch.run, hfind]

/-- After its call has been found or added, a message keeps all calls and their files. -/
lemma sameCall_dispatch {s t : State} {ip i : ℕ} {msg : SipMessage} (hw : s.world.ct.TableInv)
    (hb : branch o p s.world = .sip ip msg)
    (hfind : findOrAdd o host msg p.ts s = (some i, t)) (j : ℕ) :
    SameCall (t.world.slot j) ((dispatch o host p s).world.slot j) := by
  have hused := used_findOrAdd o host msg p.ts hw
  rw [hfind] at hused
  rw [dispatch_sip hb hfind]
  exact (sipCall_frame o p.terminate ip (body_of_branch_sip hb) (hused i rfl)).2.2 j

/-- Only a pass changes the time of the last pass, and only a new call the counter of `-l`. -/
lemma counters_dispatch (o : Options) (host : Host) (p : Packet) (s : State) :
    (dispatch o host p s).lastCleanup = s.lastCleanup ∧
      ((dispatch o host p s).callSkipCnt = s.callSkipCnt ∨
        s.callSkipCnt - 1 > 0 ∧ (dispatch o host p s).callSkipCnt = s.callSkipCnt - 1 ∨
        (dispatch o host p s).callSkipCnt = o.optCallSkipN) := by
  rw [dispatch_eq]
  rcases branch o p s.world with _ | ⟨aai, last⟩ | ⟨ip, f⟩ | ⟨ip, msg⟩
  · exact ⟨rfl, Or.inl rfl⟩
  · exact ⟨rfl, Or.inl rfl⟩
  · exact ⟨rfl, Or.inl rfl⟩
  · have hfind : (findOrAdd o host msg p.ts s).2.lastCleanup = s.lastCleanup ∧
        ((findOrAdd o host msg p.ts s).2.callSkipCnt = s.callSkipCnt ∨
          s.callSkipCnt - 1 > 0 ∧
            (findOrAdd o host msg p.ts s).2.callSkipCnt = s.callSkipCnt - 1 ∨
          (findOrAdd o host msg p.ts s).2.callSkipCnt = o.optCallSkipN) := by
      rcases findOrAdd_cases o host msg p.ts s with he | ⟨callId, -, ⟨i, -, he⟩ | ⟨-, he⟩⟩
      · rw [he]
        exact ⟨rfl, Or.inl rfl⟩
      · rw [he]
        exact ⟨rfl, Or.inl rfl⟩
      · rw [he]
        rcases newCall_cases o host msg callId p.ts s.world.ct.addIdx { s with
            world := (s.world.add callId msg.caller.toBytes msg.called.toBytes p.ts).2 } with
          ⟨-, hnew⟩ | ⟨-, hskip, hnew⟩ | ⟨-, -, hnew⟩ <;> rw [hnew]
        · exact ⟨rfl, Or.inl rfl⟩
        · exact ⟨rfl, Or.inr (Or.inl ⟨hskip, rfl⟩)⟩
        · exact ⟨rfl, Or.inr (Or.inr rfl)⟩
    rcases heq : findOrAdd o host msg p.ts s with ⟨_ | i, s'⟩ <;>
      (rw [heq] at hfind; simp only [Branch.run, heq]; exact hfind)

/-! ### The pass of an input -/

lemma written_afterPass (s : State) (a : Input) :
    (afterPass s a).world.written = s.world.written :=
  afterPass_invariant (P := fun v : World => v.written = s.world.written) rfl
    fun T _ => World.written_cleanup T

/-- What an input dumps. -/
def inputDumps (o : Options) (host : Host) (s : State) : Input → List (Via × Handle × Record)
  | .packet p =>
      (branch o p (afterPass s (.packet p)).world).dumps o host p (afterPass s (.packet p))
  | .cleanup _ => []

/-- **What an input dumps** comes after what has been dumped before. -/
theorem written_loop (o : Options) (host : Host) {s : State} {a : Input}
    (hw : (afterPass s a).world.ct.TableInv) :
    ((loop o host).next s a).world.written = s.world.written ++ inputDumps o host s a := by
  rw [← written_afterPass s a]
  cases a with
  | packet p => exact written_dispatch o host p hw
  | cleanup currtime => exact (List.append_nil _).symm

/-- The pass of an input frees the element with index `i`. -/
def Frees (i : ℕ) (s : State) (a : Input) : Prop :=
  ∃ currtime, passTime s a = some currtime ∧ s.world.ct.due currtime (s.world.slot i)

/-- The pass of an input zeroes the elements that it frees and leaves the others alone. -/
lemma slot_afterPass (s : State) (a : Input) (i : ℕ) :
    (¬Frees i s a ∧ (afterPass s a).world.slot i = s.world.slot i) ∨
      (Frees i s a ∧ (afterPass s a).world.slot i = CalltableElement.zero) := by
  rw [afterPass_world]
  rcases hT : passTime s a with _ | currtime
  · refine Or.inl ⟨?_, rfl⟩
    rintro ⟨T, h, -⟩
    exact absurd (hT.symm.trans h) (by simp)
  · have hslot := s.world.ct.slot_doCleanup currtime i
    by_cases hd : s.world.ct.due currtime (s.world.slot i)
    · exact Or.inr ⟨⟨currtime, hT, hd⟩, hslot.trans (if_pos hd)⟩
    · refine Or.inl ⟨?_, hslot.trans (if_neg hd)⟩
      rintro ⟨T, h, hd'⟩
      obtain rfl := Option.some.inj (hT.symm.trans h)
      exact hd hd'

/-- An element that is in use after a pass was in use before, and is the same. -/
lemma slot_of_used_afterPass {s : State} {a : Input} {i : ℕ}
    (hu : ((afterPass s a).world.slot i).isUsed) :
    ¬Frees i s a ∧ (afterPass s a).world.slot i = s.world.slot i := by
  rcases slot_afterPass s a i with h | ⟨-, he⟩
  · exact h
  · rw [he] at hu
    exact absurd hu (by decide)

/-! ### Dumps through an element -/

/-- Only the RTP branch for a flow of an element dumps through the element as media. -/
lemma branch_of_dumps_rtp {s : State} {i : ℕ} {f : Handle} {r : Record}
    (h : (.rtp i, f, r) ∈ (branch o p s.world).dumps o host p s) :
    ∃ ip j, branch o p s.world = .rtp ip (i, j) := by
  rcases hb : branch o p s.world with _ | ⟨aai, last⟩ | ⟨ip, g⟩ | ⟨ip, msg⟩
  · simp [hb, Branch.dumps] at h
  · simp [hb, Branch.dumps] at h
  · simp only [hb, Branch.dumps] at h
    split at h
    · obtain ⟨_, -, heq⟩ := List.mem_map.mp h
      obtain ⟨hvia, -⟩ := Prod.mk.inj heq
      obtain rfl := Via.rtp.inj hvia
      exact ⟨ip, g.2, rfl⟩
    · simp at h
  · simp only [hb, Branch.dumps] at h
    split at h
    · simp at h
    · simp at h

/-- A packet leaves the dumper of an element where it is. -/
lemma fPcap_dispatch {s : State} (hw : s.world.ct.TableInv) {i : ℕ} {f : Handle}
    (hf : (s.world.slot i).fPcap = some f) :
    ((dispatch o host p s).world.slot i).fPcap = some f := by
  refine (dispatch_invariant (P := fun v : World => v.ct.TableInv ∧ (v.slot i).fPcap = some f)
    (fun _ hv => hv.1) ?_ ⟨hw, hf⟩).2
  rintro v op hop hp ⟨hv, hfv⟩
  exact ⟨tableInv_next hop hv, fPcap_kept hop hp hv hfv⟩

/-- The dumper that a packet goes to through an element is the one of the element. -/
lemma fPcap_of_dumps (o : Options) (host : Host) (p : Packet) {s : State}
    (hw : s.world.ct.TableInv) {via : Via} {f : Handle} {r : Record} {i : ℕ}
    (h : (via, f, r) ∈ (branch o p s.world).dumps o host p s)
    (hvia : via = .rtp i ∨ via = .sip i) :
    r.ts = p.ts ∧ ((dispatch o host p s).world.slot i).fPcap = some f := by
  rcases hb : branch o p s.world with _ | ⟨aai, last⟩ | ⟨ip, g⟩ | ⟨ip, msg⟩
  · simp [hb, Branch.dumps] at h
  · simp only [hb, Branch.dumps, List.mem_map, Prod.mk.injEq] at h
    obtain ⟨_, -, rfl, -⟩ := h
    simp at hvia
  · simp only [hb, Branch.dumps] at h
    split at h
    · simp only [List.mem_map, Option.mem_toList, Prod.mk.injEq] at h
      obtain ⟨f', hf, rfl, rfl, rfl⟩ := h
      obtain rfl : g.1 = i := by simpa using hvia
      exact ⟨rfl, fPcap_dispatch hw hf⟩
    · simp at h
  · rcases heq : findOrAdd o host msg p.ts s with ⟨_ | k, s'⟩
    · simp [hb, Branch.dumps, heq] at h
    · simp only [hb, Branch.dumps, heq, List.mem_map, Option.mem_toList, Prod.mk.injEq]
        at h
      obtain ⟨f', hf, rfl, rfl, rfl⟩ := h
      obtain rfl : k = i := by simpa using hvia
      exact ⟨rfl, (sameCall_dispatch hw hb heq k).fPcap.trans hf⟩

end PcapSipDump
