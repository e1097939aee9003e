import PcapSipDump.Capture.Branch

/-!
# The level of `-v`

The level decides what is printed, and one thing more: from level 2 on, `parse_sdp` returns when
it finds no address and port, and the payload type of telephone events and the mention of T.38 are
not read.  So two runs that differ in the level record the same exactly as long as such a body
would not change its call (`verbosity_iff`).
-/

namespace PcapSipDump

open Lib Lib.CString Lib.SlotTable

variable {o : Options} {host : Host} {w : World} {p : Packet} {s : State}

/-! ### What is compared -/

/-- The path of the file that the event deletes. -/
def IoEvent.unlinked : IoEvent → Option Bytes
  | .unlink fn => some fn
  | _ => none

/-- The file that the event opens, and its dumper. -/
def IoEvent.fileOpened : IoEvent → Option (Bytes × Handle)
  | .dumpOpen _ fn (some f) => some (fn, f)
  | _ => none

/-- Two states with the same table in which the same packets have been dumped into the same files
and the same files have been unlinked. -/
structure SameRecord (s t : State) : Prop where
  table : s.world.ct.table = t.world.ct.table
  written : s.world.written = t.world.written
  opened : s.world.log.filterMap IoEvent.fileOpened = t.world.log.filterMap IoEvent.fileOpened
  unlinked : s.world.log.filterMap IoEvent.unlinked = t.world.log.filterMap IoEvent.unlinked

lemma SameRecord.refl (s : State) : SameRecord s s := ⟨rfl, rfl, rfl, rfl⟩

/-- The same settings with another level. -/
def Options.atVerbosity (o : Options) (v : ℤ) : Options := { o with verbosity := v }

/-! ### The attributes of an SDP body -/

/-- The attributes of a body are those of an element already. -/
def HasAttributes (optT38only : Bool) (sdp : Bytes) (sdplen : ℕ) (rtpmapEvent : UInt8)
    (hadT38 : Bool) : Prop :=
  (sdpGetRtpmapEvent sdp = 0 ∨ rtpmapEvent = sdpGetRtpmapEvent sdp) ∧
    (optT38only ∧ (memmem (sdp.take sdplen) (ascii "udptl t38")).isSome → hadT38)

/-- `rtpmap_event` and `had_t38` of the element of the message's call; one that is to be added
starts with 101 and without T.38. -/
def callAttributes (o : Options) (msg : SipMessage) (w : World) : Option (UInt8 × Bool) :=
  match msg.callId with
  | none => none
  | some callId =>
      match w.ct.findByCallId callId with
      | some i => some ((w.slot i).rtpmapEvent, (w.slot i).hadT38)
      | none => if numberFilterMatched o msg then some (101, false) else none

lemma callAttributes_of_findOrAdd (hw : s.world.ct.TableInv) {msg : SipMessage} {i : ℕ} {t : State}
    (h : findOrAdd o host msg p.ts s = (some i, t)) :
    callAttributes o msg s.world =
      some ((t.world.slot i).rtpmapEvent, (t.world.slot i).hadT38) := by
  rcases findOrAdd_cases o host msg p.ts s with he | ⟨callId, hid, ⟨k, hf, he⟩ | ⟨hf, he⟩⟩
  · rw [he] at h
    exact absurd (congrArg Prod.fst h) (by simp)
  · rw [he] at h
    cases h
    simp only [callAttributes, hid, hf]
  · have hmatched : numberFilterMatched o msg := by
      by_contra hn
      rw [findOrAdd_refused hid hf hn host p.ts] at h
      exact absurd (congrArg Prod.fst h) (by simp)
    simp only [callAttributes, hid, hf, hmatched, if_true]
    have hused := used_findOrAdd o host msg p.ts hw i
    rcases slot_findOrAdd o host msg p.ts s i with hsame | ⟨_, f, fnPcap, -, -, -, -, -, hslot⟩
    · -- the element that is added was not in use
      rw [hsame] at hused
      have hidx : s.world.ct.addIdx = i := by
        rw [he] at h
        exact Option.some.inj (congrArg Prod.fst h)
      have hu := hused (congrArg Prod.fst h)
      rw [← hidx, World.slot, s.world.ct.isUsed_addIdx] at hu
      exact absurd hu (by decide)
    · rw [h] at hslot
      rw [hslot]
      rfl

lemma exists_findOrAdd {msg : SipMessage} {attributes : UInt8 × Bool}
    (h : callAttributes o msg s.world = some attributes) (host : Host) (ts : ℤ) :
    ∃ i t, findOrAdd o host msg ts s = (some i, t) := by
  unfold callAttributes at h
  rcases hid : msg.callId with _ | callId
  · simp [hid] at h
  · simp only [hid] at h
    rcases hf : s.world.ct.findByCallId callId with _ | i
    · simp only [hf] at h
      by_cases hn : numberFilterMatched o msg
      · exact ⟨_, _, findOrAdd_added hid hf hn host ts⟩
      · simp [hn] at h
    · exact ⟨_, _, findOrAdd_found hid hf o host ts⟩

/-- Reading the attributes changes an element exactly when it does not have them. -/
lemma foldl_sdpAttributes_eq_iff (optT38only : Bool) (sdp : Bytes) (sdplen : ℕ)
    (c : CalltableElement) :
    (sdpAttributes optT38only sdp sdplen).foldl (fun c e => e.apply c) c = c ↔
      HasAttributes optT38only sdp sdplen c.rtpmapEvent c.hadT38 := by
  unfold sdpAttributes HasAttributes
  generalize sdpGetRtpmapEvent sdp = pt
  generalize (memmem (sdp.take sdplen) (ascii "udptl t38")).isSome = mentioned
  rw [List.foldl_append]
  by_cases h0 : pt = 0 <;> by_cases ht38 : optT38only ∧ mentioned
  · rw [if_pos h0, if_pos ht38]
    refine ⟨fun h => ⟨Or.inl h0, fun _ => ?_⟩, fun h => ?_⟩
    · exact (congrArg CalltableElement.hadT38 h).symm
    · change { c with hadT38 := true } = c
      rw [← h.2 ht38]
  · rw [if_pos h0, if_neg ht38]
    exact iff_of_true rfl ⟨Or.inl h0, fun h => absurd h ht38⟩
  · rw [if_neg h0, if_pos ht38]
    refine ⟨fun h => ⟨Or.inr ?_, fun _ => ?_⟩, fun h => ?_⟩
    · exact (congrArg CalltableElement.rtpmapEvent h).symm
    · exact (congrArg CalltableElement.hadT38 h).symm
    · change { c with rtpmapEvent := pt, hadT38 := true } = c
      rw [← h.2 ht38, ← h.1.resolve_left h0]
  · rw [if_neg h0, if_neg ht38]
    refine ⟨fun h => ⟨Or.inr ?_, fun h => absurd h ht38⟩, fun h => ?_⟩
    · exact (congrArg CalltableElement.rtpmapEvent h).symm
    · change { c with rtpmapEvent := pt } = c
      rw [← h.1.resolve_left h0]

/-- The payload of a packet in the SIP branch. -/
def sipPayload (p : Packet) (ip : ℕ) : Bytes := p.terminate.mem.drop (dataPos p.mem ip)

/-- The length of the payload of a packet in the SIP branch. -/
def sipPayloadLen (p : Packet) (ip : ℕ) : ℕ := dataLen p.terminate (dataPos p.mem ip)

/-- The two levels are on the same side of 2, or the packet is not a message of a call with an SDP
body that has no address but attributes that the element of the call does not have. -/
def VerbosityCondition (o : Options) (v : ℤ) (s : State) : Input → Prop
  | .packet p => (2 ≤ o.verbosity ↔ 2 ≤ v) ∨
      ∀ ip msg rtpmapEvent hadT38 sdp sdplen,
        branch o p (afterPass s (.packet p)).world = .sip ip msg →
        callAttributes o msg (afterPass s (.packet p)).world = some (rtpmapEvent, hadT38) →
        parsedSdp (sipPayload p ip) (sipPayloadLen p ip) = some (sdp, sdplen) →
        getIpPortFromSdp sdp sdplen = none →
        HasAttributes o.optT38only sdp sdplen rtpmapEvent hadT38
  | .cleanup _ => True

/-! ### One packet at two levels -/

/-- The message as it is read at another level. -/
def SipMessage.atVerbosity (msg : SipMessage) (o : Options) (v : ℤ) (p : Packet) (ip : ℕ) :
    SipMessage :=
  { msg with body := parseBody v o.optT38only (sipPayload p ip) (sipPayloadLen p ip) }

lemma readSip_atVerbosity (o : Options) (v : ℤ) (p : Packet) (ip : ℕ) (method : Bytes) :
    readSip (o.atVerbosity v) p.terminate (dataPos p.mem ip) method =
      (readSip o p.terminate (dataPos p.mem ip) method).atVerbosity o v p ip := by
  simp only [readSip, SipMessage.atVerbosity, sipPayload, sipPayloadLen, Options.atVerbosity]

/-- The level has no influence on the branch, only on the assignments of a message's body. -/
lemma branch_atVerbosity (o : Options) (v : ℤ) (p : Packet) (w : World) :
    branch (o.atVerbosity v) p w = match branch o p w with
      | .sip ip msg => .sip ip (msg.atVerbosity o v p ip)
      | b => b := by
  have hlater : laterFragment (o.atVerbosity v) p = laterFragment o p := rfl
  have hlookup : ∀ ip, rtpLookup (o.atVerbosity v) p.mem ip w = rtpLookup o p.mem ip w :=
    fun _ => rfl
  unfold branch
  rw [hlater]
  rcases laterFragment o p with _ | ⟨aai, last⟩
  · simp only [show (o.atVerbosity v).dlt = o.dlt from rfl,
      show (o.atVerbosity v).useTcp = o.useTcp from rfl]
    rcases headerIp o.dlt p.mem with _ | ip
    · rfl
    · simp only
      by_cases hadm : isAdmitted o.useTcp o.dlt p.caplen p.mem ip
      · simp only [if_pos hadm, admittedBranch, hlookup]
        rcases (rtpLookup o p.mem ip w).1 with _ | f
        · simp only
          rcases sipMethod (p.mem.drop (dataPos p.mem ip)) with _ | method
          · rfl
          · simp only [readSip_atVerbosity]
        · rfl
      · simp only [if_neg hadm]
  · rfl

/-- The body of a message in the SIP branch. -/
lemma body_eq_of_branch_sip {ip : ℕ} {msg : SipMessage} (h : branch o p w = .sip ip msg) :
    msg.body = parseBody o.verbosity o.optT38only (sipPayload p ip) (sipPayloadLen p ip) := by
  obtain ⟨-, -, -, -, method, -, rfl⟩ := of_branch_sip h
  rfl

/-- Bodies that change the element of the call in the same way are the same for the branch. -/
lemma sipCall_congr (ip : ℕ) {i : ℕ} (msg : SipMessage) (body : List ElementWrite)
    (h : ∀ c, c = w.slot i ∨ c = ElementWrite.bye.apply (w.slot i) →
      msg.body.foldl (fun c e => e.apply c) c = body.foldl (fun c e => e.apply c) c) :
    sipCall o p ip i { msg with body := body } w = sipCall o p ip i msg w := by
  have hwrites : msg.writes.foldl (fun c e => e.apply c) (w.slot i) =
      ({ msg with body := body } : SipMessage).writes.foldl (fun c e => e.apply c) (w.slot i) := by
    have hbye : ({ msg with body := body } : SipMessage).isBye = msg.isBye := rfl
    rw [SipMessage.writes, SipMessage.writes, List.foldl_append, List.foldl_append, hbye]
    refine h _ ?_
    split
    · exact Or.inr rfl
    · exact Or.inl rfl
  have heq := modify_congr_at (f := fun c => msg.writes.foldl (fun c e => e.apply c) c)
    (g := fun c => ({ msg with body := body } : SipMessage).writes.foldl
      (fun c e => e.apply c) c) CalltableElement.zero hwrites
  rw [sipCall_eq, sipCall_eq, foldl_write_eq, foldl_write_eq, Calltable.modify, Calltable.modify,
    heq]
  rfl

/-- At two levels the assignments of a body to an element differ exactly when one level is below 2,
the other is not, and the body has no address but attributes that the element does not have. -/
lemma foldl_parseBody_eq_iff (v v' : ℤ) (optT38only : Bool) (data : Bytes) (dataLen : ℕ)
    (c : CalltableElement) :
    (parseBody v optT38only data dataLen).foldl (fun c e => e.apply c) c =
        (parseBody v' optT38only data dataLen).foldl (fun c e => e.apply c) c ↔
      (2 ≤ v ↔ 2 ≤ v') ∨ ∀ sdp sdplen, parsedSdp data dataLen = some (sdp, sdplen) →
        getIpPortFromSdp sdp sdplen = none →
        HasAttributes optT38only sdp sdplen c.rtpmapEvent c.hadT38 := by
  rw [parseBody_eq, parseBody_eq]
  rcases parsedSdp data dataLen with _ | ⟨sdp, sdplen⟩
  · exact iff_of_true rfl (Or.inr fun _ _ h => absurd h (by simp))
  have hforall : (∀ sdp' sdplen', some (sdp, sdplen) = some (sdp', sdplen') →
      getIpPortFromSdp sdp' sdplen' = none →
      HasAttributes optT38only sdp' sdplen' c.rtpmapEvent c.hadT38) ↔
      (getIpPortFromSdp sdp sdplen = none →
        HasAttributes optT38only sdp sdplen c.rtpmapEvent c.hadT38) := by
    constructor
    · exact fun h => h sdp sdplen rfl
    · rintro h _ _ heq
      obtain ⟨rfl, rfl⟩ := Prod.mk.inj (Option.some.inj heq)
      exact h
  rw [hforall]
  simp only [parseSdp_eq]
  have hiff := foldl_sdpAttributes_eq_iff optT38only sdp sdplen c
  rcases getIpPortFromSdp sdp sdplen with _ | ⟨addr, port⟩
  · simp only [forall_const]
    by_cases hv : 2 ≤ v <;> by_cases hv' : 2 ≤ v'
    · simp [hv, hv']
    · simp only [hv, hv', if_true, if_false, iff_false, not_true, false_or, List.foldl_nil]
      rw [← hiff]
      exact eq_comm
    · simp only [hv, hv', if_true, if_false, iff_true, false_or, List.foldl_nil]
      exact hiff
    · simp [hv, hv']
  · exact iff_of_true rfl (Or.inr fun h => absurd h (by simp))

/-- Finding or adding a call reads neither the level nor the body. -/
lemma findOrAdd_atVerbosity (o : Options) (host : Host) (v : ℤ) (p : Packet) (ip : ℕ)
    (msg : SipMessage) (ts : ℤ) (s : State) :
    findOrAdd (o.atVerbosity v) host (msg.atVerbosity o v p ip) ts s =
      findOrAdd o host msg ts s := by
  unfold findOrAdd
  rfl

/-- **A packet at two levels** does the same when it meets the condition. -/
lemma dispatch_atVerbosity {v : ℤ} (hw : s.world.ct.TableInv)
    (h : (2 ≤ o.verbosity ↔ 2 ≤ v) ∨
      ∀ ip msg rtpmapEvent hadT38 sdp sdplen, branch o p s.world = .sip ip msg →
        callAttributes o msg s.world = some (rtpmapEvent, hadT38) →
        parsedSdp (sipPayload p ip) (sipPayloadLen p ip) = some (sdp, sdplen) →
        getIpPortFromSdp sdp sdplen = none →
        HasAttributes o.optT38only sdp sdplen rtpmapEvent hadT38) :
    dispatch (o.atVerbosity v) host p s = dispatch o host p s := by
  rw [dispatch_eq, dispatch_eq, branch_atVerbosity]
  rcases hb : branch o p s.world with _ | ⟨aai, last⟩ | ⟨ip, f⟩ | ⟨ip, msg⟩
  · rfl
  · rfl
  · rfl
  · simp only [Branch.run, findOrAdd_atVerbosity]
    rcases heq : findOrAdd o host msg p.ts s with ⟨_ | i, t⟩
    · rfl
    · have hsame : sipCall o p.terminate ip i (msg.atVerbosity o v p ip) t.world =
          sipCall o p.terminate ip i msg t.world := by
        refine sipCall_congr ip msg _ fun c hc => ?_
        rw [body_eq_of_branch_sip hb, foldl_parseBody_eq_iff]
        refine h.imp_right fun h sdp sdplen hparsed hnone => ?_
        have hattr := h ip msg _ _ sdp sdplen hb (callAttributes_of_findOrAdd hw heq) hparsed hnone
        -- a BYE assigns other fields
        rcases hc with rfl | rfl <;> exact hattr
      exact congrArg (State.mk · t.lastCleanup t.callSkipCnt) hsame

/-- The element of a message's call after the packet. -/
lemma slot_dispatch_sip {ip i : ℕ} {msg : SipMessage} {t : State} (hw : s.world.ct.TableInv)
    (hb : branch o p s.world = .sip ip msg)
    (hfind : findOrAdd o host msg p.ts s = (some i, t)) :
    (dispatch o host p s).world.slot i =
      msg.writes.foldl (fun c e => e.apply c) (t.world.slot i) := by
  have hused := used_findOrAdd o host msg p.ts hw
  rw [hfind] at hused
  rw [dispatch_sip hb hfind, slot_sipCall (hused i rfl), if_pos rfl]

/-- A packet at two levels gives different elements when it does not meet the condition. -/
lemma slot_dispatch_atVerbosity_ne {v : ℤ} {ip i : ℕ} {msg : SipMessage} {t : State} {sdp : Bytes}
    {sdplen : ℕ} (hw : s.world.ct.TableInv) (hv : ¬(2 ≤ o.verbosity ↔ 2 ≤ v))
    (hb : branch o p s.world = .sip ip msg) (hfind : findOrAdd o host msg p.ts s = (some i, t))
    (hparsed : parsedSdp (sipPayload p ip) (sipPayloadLen p ip) = some (sdp, sdplen))
    (hnone : getIpPortFromSdp sdp sdplen = none)
    (hattr : ¬HasAttributes o.optT38only sdp sdplen (t.world.slot i).rtpmapEvent
      (t.world.slot i).hadT38) :
    (dispatch o host p s).world.slot i ≠ (dispatch (o.atVerbosity v) host p s).world.slot i := by
  have hb' : branch (o.atVerbosity v) p s.world = .sip ip (msg.atVerbosity o v p ip) := by
    rw [branch_atVerbosity, hb]
  have hfind' : findOrAdd (o.atVerbosity v) host (msg.atVerbosity o v p ip) p.ts s =
      (some i, t) := (findOrAdd_atVerbosity o host v p ip msg p.ts s).trans hfind
  rw [slot_dispatch_sip hw hb hfind, slot_dispatch_sip hw hb' hfind']
  obtain ⟨c, hc⟩ : ∃ c, c = (if msg.isBye then [ElementWrite.bye] else []).foldl
    (fun c e => e.apply c) (t.world.slot i) := ⟨_, rfl⟩
  -- the level has no influence on the assignment of a BYE
  have hwrites : (msg.atVerbosity o v p ip).writes =
      (if msg.isBye then [ElementWrite.bye] else []) ++
        parseBody v o.optT38only (sipPayload p ip) (sipPayloadLen p ip) := rfl
  rw [hwrites, SipMessage.writes, List.foldl_append, List.foldl_append, ← hc,
    body_eq_of_branch_sip hb, Ne, foldl_parseBody_eq_iff]
  rintro (hsame | hall)
  · exact hv hsame
  · have hhas := hall sdp sdplen hparsed hnone
    apply hattr
    rw [hc] at hhas
    split at hhas <;> exact hhas

/-! ### Two runs -/

/-- **The level and what is recorded.**  Two runs on the same packets with settings that differ in
the level of `-v` only have the same table, the same dumps into the same files and the same
unlinked files all the way, exactly when no step meets a body that is read at one of the levels
and not at the other. -/
theorem verbosity_iff (o : Options) (host : Host) (v : ℤ) (inputs : List Input) :
    (∀ pre, pre <+: inputs → SameRecord ((loop o host).run o.start pre)
        ((loop (o.atVerbosity v) host).run (o.atVerbosity v).start pre)) ↔
      (loop o host).Along (VerbosityCondition o v) o.start inputs := by
  have hstart : (o.atVerbosity v).start = o.start := rfl
  rw [hstart]
  refine Machine.lockstep_iff_along (I := fun s : State => Owns s.world) SameRecord.refl
    (fun s a howns => howns.loop a) (fun s a howns hC => ?_) (fun s a howns hC hsame => ?_)
    (owns_start o)
  · cases a with
    | cleanup currtime => rfl
    | packet p => exact dispatch_atVerbosity (howns.afterPass (.packet p)).tableInv hC
  · cases a with
    | cleanup currtime => exact hC trivial
    | packet p =>
      simp only [VerbosityCondition, not_or, not_forall] at hC
      obtain ⟨hv, ip, msg, event, t38, sdp, sdplen, hb, hcall, hparsed, hnone, hattr⟩ := hC
      obtain ⟨i, t, hfind⟩ := exists_findOrAdd hcall host p.ts
      obtain ⟨rfl, rfl⟩ := Prod.mk.inj (Option.some.inj
        (hcall.symm.trans
          (callAttributes_of_findOrAdd (howns.afterPass (.packet p)).tableInv hfind)))
      refine slot_dispatch_atVerbosity_ne (howns.afterPass (.packet p)).tableInv hv hb hfind hparsed
        hnone hattr ?_
      exact congrArg (Lib.SlotTable.slotAt CalltableElement.zero · i) hsame.table

/-- An INVITE whose SDP rejects the image stream, so that it has no port, but names T.38.  The file
of the call is kept at level 0 and unlinked at level 2. -/
theorem verbosity_false :
    let o : Options := { Options.raw with optT38only := true }
    let inputs : List Input :=
      [.packet (.captured 1000 (ipv4Udp 1 0 [10, 0, 0, 1] [10, 0, 0, 2] 5060 5060
        (sipRequest "INVITE" "x" (ascii "c=IN IP4 10.0.0.1\r\nm=image 0 udptl t38\r\n")))),
       .cleanup 2147483647]
    let s := (loop o Host.numbering).run o.start inputs
    let t := (loop (o.atVerbosity 2) Host.numbering).run (o.atVerbosity 2).start inputs
    s.world.log.filterMap IoEvent.unlinked = [] ∧
      t.world.log.filterMap IoEvent.unlinked ≠ [] ∧ ¬SameRecord s t := by
  intro o inputs s t
  have hs : s.world.log.filterMap IoEvent.unlinked = [] := by decide +kernel
  have ht : t.world.log.filterMap IoEvent.unlinked ≠ [] := by decide +kernel
  exact ⟨hs, ht, fun h => ht (h.unlinked.symm.trans hs)⟩

end PcapSipDump
