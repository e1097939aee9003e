import PcapSipDump.Capture.Branch

/-!
# Which requests are recorded

Only a message that creates the entry of its call opens a file for it, and any message with a
Call-ID creates one.  So a request whose method matches is recorded exactly when it creates the
entry of its call or the message that created this entry had a method that matches
(`matching_recorded_iff`): an entry that was created by a response stays without a file.
-/

namespace PcapSipDump

open Lib Lib.CString

variable {o : Options} {host : Host} {p : Packet} {s : State} {a : Input} {i : ℕ}

/-- The message creates the entry with index `i` for its call. -/
def Creates (o : Options) (host : Host) (i : ℕ) (msg : SipMessage) (s : State) : Input → Prop
  | .packet p => ∃ ip callId, branch o p (afterPass s (.packet p)).world = .sip ip msg ∧
      msg.callId = some callId ∧
      (afterPass s (.packet p)).world.ct.findByCallId callId = none ∧
      (findOrAdd o host msg p.ts (afterPass s (.packet p))).1 = some i
  | .cleanup _ => False

/-- A message with a method that matches creates the entry with index `i`. -/
def CreatesMatching (o : Options) (host : Host) (i : ℕ) (s : State) (a : Input) : Prop :=
  ∃ msg, Creates o host i msg s a ∧ o.methodFilter msg.method

/-- The settings of the property: every call is recorded, and every file can be opened. -/
structure RecordsAll (o : Options) (host : Host) : Prop where
  noFilter : o.numberFilter = none
  everyCall : o.optCallSkipN = 1
  dumpOpen_ne : ∀ log fn, host.dumpOpen log fn ≠ none

/-! ### What creates a file -/

/-- With these settings a new call is given a file when the method of its message matches. -/
lemma RecordsAll.findOrAdd (h : RecordsAll o host) (hcnt : s.callSkipCnt = 1) {msg : SipMessage}
    {callId : Bytes} (hid : msg.callId = some callId)
    (hnone : s.world.ct.findByCallId callId = none) (hm : o.methodFilter msg.method) (ts : ℤ) :
    ∃ i f, (PcapSipDump.findOrAdd o host msg ts s).1 = some i ∧
      ((PcapSipDump.findOrAdd o host msg ts s).2.world.slot i).fPcap = some f := by
  have hmatched : numberFilterMatched o msg = true := by rw [numberFilterMatched, h.noFilter]
  obtain ⟨w, hw⟩ : ∃ v, v = (s.world.add callId msg.caller.toBytes msg.called.toBytes ts).2 :=
    ⟨_, rfl⟩
  have hu : (w.slot s.world.ct.addIdx).isUsed := by
    rw [hw]
    exact (s.world.slot_added callId _ _ ts).1
  rw [findOrAdd_added hid hnone hmatched host ts, ← hw]
  rcases newCall_cases o host msg callId ts s.world.ct.addIdx { s with world := w } with
    ⟨hno, -⟩ | ⟨-, hskip, -⟩ | ⟨-, -, he⟩
  · exact absurd hm hno
  · have hcnt' : s.callSkipCnt - 1 > 0 := hskip
    omega
  rw [he]
  obtain ⟨f, hf⟩ := Option.ne_none_iff_exists'.mp (h.dumpOpen_ne
    (w.log ++ ((if 47 ∈ fileName o host msg ts then some (dirname (fileName o host msg ts))
      else none).map IoEvent.mkdirP).toList) (fileName o host msg ts))
  refine ⟨s.world.ct.addIdx, f, rfl, ?_⟩
  rw [World.fPcap_openFile hu, if_pos rfl]
  exact hf

lemma callSkipCnt_afterPass (s : State) (a : Input) :
    (afterPass s a).callSkipCnt = s.callSkipCnt := by
  cases a with
  | cleanup currtime => rfl
  | packet p =>
    simp only [afterPass, State.periodicCleanup]
    split <;> rfl

/-- The calls that the loop skips are none. -/
lemma RecordsAll.callSkipCnt (h : RecordsAll o host) (hcnt : s.callSkipCnt = 1) (a : Input) :
    ((loop o host).next s a).callSkipCnt = 1 := by
  cases a with
  | cleanup currtime => exact hcnt
  | packet p =>
    have hpass : (afterPass s (.packet p)).callSkipCnt = 1 :=
      (callSkipCnt_afterPass s _).trans hcnt
    rcases (counters_dispatch o host p (afterPass s (.packet p))).2 with he | ⟨hskip, -⟩ | he
    · exact he.trans hpass
    · omega
    · exact he.trans h.everyCall

/-- The entry has a file. -/
def HasFile (i : ℕ) (s : State) : Prop := (s.world.slot i).fPcap ≠ none

/-- **When an entry has a file** after an input: a message with a matching method has just created
it, or it had one and was not freed. -/
lemma RecordsAll.hasFile_iff (h : RecordsAll o host) (hcnt : s.callSkipCnt = 1)
    (hw : (afterPass s a).world.ct.TableInv) (i : ℕ) :
    HasFile i ((loop o host).next s a) ↔
      CreatesMatching o host i s a ∨ ¬Frees i s a ∧ HasFile i s := by
  have hpass : ((afterPass s a).world.slot i).fPcap ≠ none ↔ ¬Frees i s a ∧ HasFile i s := by
    rcases slot_afterPass s a i with ⟨hno, he⟩ | ⟨hfrees, he⟩
    · rw [he]
      exact (and_iff_right hno).symm
    · rw [he]
      simp [CalltableElement.zero, hfrees]
  cases a with
  | cleanup currtime =>
    have hno : ¬CreatesMatching o host i s (.cleanup currtime) := by
      rintro ⟨_, hc, -⟩
      exact hc
    rw [or_iff_right hno]
    exact hpass
  | packet p =>
    have hcnt' : (afterPass s (.packet p)).callSkipCnt = 1 :=
      (callSkipCnt_afterPass s _).trans hcnt
    constructor
    · intro hfile
      have hfile' : ((PcapSipDump.dispatch o host p (afterPass s (.packet p))).world.slot i).fPcap ≠
        none := hfile
      rcases slot_dispatch o host p hw i with ⟨es, hes, he⟩ | ⟨ip, j, es, -, hes, he⟩ |
        ⟨ip, msg, callId, f, fnPcap, es, hb, hid, hnone, hidx, hfind, hm, hes, he⟩
      · rw [he, (SameCall.foldl_apply (ElementWrite.IsSip.ne_file hes) _).fPcap] at hfile'
        exact Or.inr (hpass.mp hfile')
      · rw [he, (SameCall.foldl_apply (ElementWrite.ne_file_of_rtp hes) _).fPcap] at hfile'
        exact Or.inr (hpass.mp hfile')
      · rw [he, (SameCall.foldl_apply (ElementWrite.IsSip.ne_file hes) _).fPcap] at hfile'
        exact Or.inl ⟨msg, ⟨ip, callId, hb, hid, hnone, hfind⟩, hm hfile'⟩
    · rintro (⟨msg, ⟨ip, callId, hb, hid, hnone, hfind⟩, hm⟩ | hold)
      · obtain ⟨k, f, hk, hf⟩ := h.findOrAdd hcnt' hid hnone hm p.ts
        obtain rfl : i = k := Option.some.inj (hfind.symm.trans hk)
        rcases heq : PcapSipDump.findOrAdd o host msg p.ts (afterPass s (.packet p)) with ⟨k, s'⟩
        rw [heq] at hk hf
        obtain rfl : k = some i := hk
        have hsame : SameCall (s'.world.slot i)
            (((loop o host).next s (.packet p)).world.slot i) := sameCall_dispatch hw hb heq i
        rw [HasFile, hsame.fPcap, hf]
        simp
      · obtain ⟨f, hf⟩ := Option.ne_none_iff_exists'.mp (hpass.mpr hold)
        rw [HasFile, fPcap_of_afterPass hw hf]
        simp

/-! ### Runs -/

/-- An entry has a file after a run exactly when the last message that created it had a method
that matches. -/
lemma RecordsAll.hasFile_iff_since (h : RecordsAll o host) (inputs : List Input) (i : ℕ) :
    HasFile i ((loop o host).run o.start inputs) ↔
      (loop o host).Since (CreatesMatching o host i) (Frees i) o.start inputs := by
  have hrun := Machine.run_iff_since (M := loop o host) (P := HasFile i)
    (W := CreatesMatching o host i) (T := Frees i)
    (I := fun s => Owns s.world ∧ s.callSkipCnt = 1)
    (fun s a _ hs => ⟨hs.1.loop a, h.callSkipCnt hs.2 a⟩)
    (fun s a _ hs => h.hasFile_iff hs.2 (hs.1.afterPass a).tableInv i)
    (legal_loop o host o.start inputs)
    ⟨owns_start o, rfl⟩
  have hstart : ¬HasFile i o.start := by
    have hzero : o.start.world.slot i = CalltableElement.zero := Calltable.slot_create _ _ i
    rw [HasFile, hzero]
    exact fun hne => hne rfl
  rw [hrun]
  exact or_iff_left fun hno => hstart hno.2

/-- **Which matching requests are recorded.**  With no number filter, every call to be recorded and
every file opening, a message in the SIP branch that has a Call-ID and a method that matches is
dumped into the file of its call exactly when, in case its call has an entry already, the
message that created this entry had a method that matches. -/
theorem matching_recorded_iff (o : Options) (host : Host) (hall : RecordsAll o host)
    (pre : List Input) (p : Packet) (ip : ℕ) (msg : SipMessage) (callId : Bytes)
    (hb : branch o p (afterPass ((loop o host).run o.start pre) (.packet p)).world = .sip ip msg)
    (hid : msg.callId = some callId) (hm : o.methodFilter msg.method) :
    let s := (loop o host).run o.start pre
    let s' := (loop o host).next s (.packet p)
    (∃ i f, s'.world.ct.findByCallId callId = some i ∧ (s'.world.slot i).fPcap = some f ∧
        s'.world.written = s.world.written ++ [(.sip i, f, p.terminate.record)]) ↔
      ∀ i, (afterPass s (.packet p)).world.ct.findByCallId callId = some i →
        (loop o host).Since (CreatesMatching o host i) (Frees i) o.start pre := by
  intro s s'
  have hs : Owns s.world := owns_run o host pre
  have hw : (afterPass s (.packet p)).world.ct.TableInv := (hs.afterPass _).tableInv
  have hw' : s'.world.ct.TableInv := (hs.loop (.packet p)).tableInv
  have hcnt : s.callSkipCnt = 1 :=
    Machine.run_invariant (M := loop o host) (P := fun s : State => s.callSkipCnt = 1)
      (fun _ a hs => hall.callSkipCnt hs a) rfl pre
  have hcnt' : (afterPass s (.packet p)).callSkipCnt = 1 :=
    (callSkipCnt_afterPass s _).trans hcnt
  -- the call is found or added at some index `k`
  have hsome : ∃ k t, findOrAdd o host msg p.ts (afterPass s (.packet p)) = (some k, t) := by
    rcases hf : (afterPass s (.packet p)).world.ct.findByCallId callId with _ | k
    · obtain ⟨k, -, hk, -⟩ := hall.findOrAdd hcnt' hid hf hm p.ts
      exact ⟨k, _, Prod.ext hk rfl⟩
    · exact ⟨k, _, findOrAdd_found hid hf o host p.ts⟩
  obtain ⟨k, t, heq⟩ := hsome
  have hkey := key_findOrAdd o host p.ts hw hid (i := k) (by rw [heq])
  rw [heq] at hkey
  have hsame : SameCall (t.world.slot k) (s'.world.slot k) := sameCall_dispatch hw hb heq k
  have hfound : s'.world.ct.findByCallId callId = some k :=
    hw'.findByCallId_eq_some_iff.mpr
      ⟨hsame.isUsed.trans hkey.1, hsame.key.trans hkey.2⟩
  have hwritten : s'.world.written = s.world.written ++
      (t.world.slot k).fPcap.toList.map fun f => (.sip k, f, p.terminate.record) := by
    have hnext := written_loop o host (a := .packet p) hw
    rw [inputDumps, hb, Branch.dumps, heq] at hnext
    exact hnext
  have hrecorded : (∃ i f, s'.world.ct.findByCallId callId = some i ∧
      (s'.world.slot i).fPcap = some f ∧
      s'.world.written = s.world.written ++ [(.sip i, f, p.terminate.record)]) ↔
      (t.world.slot k).fPcap ≠ none := by
    constructor
    · rintro ⟨i, f, hi, hfile, -⟩
      obtain rfl : k = i := Option.some.inj (hfound.symm.trans hi)
      rw [← hsame.fPcap, hfile]
      simp
    · intro hne
      obtain ⟨f, hf⟩ := Option.ne_none_iff_exists'.mp hne
      refine ⟨k, f, hfound, hsame.fPcap.trans hf, ?_⟩
      rw [hwritten, hf]
      rfl
  rw [hrecorded]
  rcases hf : (afterPass s (.packet p)).world.ct.findByCallId callId with _ | i
  · obtain ⟨k', f, hk, hfile⟩ := hall.findOrAdd hcnt' hid hf hm p.ts
    rw [heq] at hk hfile
    obtain rfl : k = k' := Option.some.inj hk
    refine iff_of_true ?_ (by simp)
    rw [hfile]
    simp
  · obtain ⟨hk, ht⟩ := Prod.mk.inj (heq.symm.trans (findOrAdd_found hid hf o host p.ts))
    obtain rfl : k = i := Option.some.inj hk
    obtain ⟨-, hslot⟩ := slot_of_used_afterPass (hw.findByCallId_eq_some_iff.mp hf).1
    rw [ht, hslot]
    simp only [Option.some.injEq, forall_eq']
    exact hall.hasFile_iff_since pre k

lemma recordsAll_raw : RecordsAll Options.raw Host.numbering :=
  ⟨rfl, rfl, fun _ _ => by simp [Host.numbering]⟩

/-- The first INVITE of a call is recorded. -/
theorem matching_recorded_first :
    let p : Packet := .captured 1000 (invite "x")
    let s' := (loop Options.raw Host.numbering).next Options.raw.start (.packet p)
    ∃ i f, s'.world.ct.findByCallId (ascii "x") = some i ∧ (s'.world.slot i).fPcap = some f ∧
      s'.world.written = [(.sip i, f, p.terminate.record)] := by
  intro p s'
  obtain ⟨ip, msg, hb, hm, hid⟩ := exists_of_message (show (branch Options.raw p
    (afterPass Options.raw.start (.packet p)).world).message.map
      (fun msg => (msg.method, msg.callId)) = some (ascii "INVITE", some (ascii "x")) by
    decide +kernel)
  have hmatch : Options.raw.methodFilter msg.method := by
    rw [hm]
    decide
  have hnone : (afterPass ((loop Options.raw Host.numbering).run Options.raw.start [])
      (.packet p)).world.ct.findByCallId (ascii "x") = none := by decide +kernel
  refine (matching_recorded_iff Options.raw Host.numbering recordsAll_raw [] p ip msg (ascii "x")
    hb hid hmatch).mpr fun i hi => ?_
  rw [hnone] at hi
  cases hi

/-- A response from 10.0.0.2 to 10.0.0.1, not fragmented. -/
def response (callId : String) : Bytes :=
  ipv4Udp 4 0 [10, 0, 0, 2] [10, 0, 0, 1] 5060 5060
    (ascii "SIP/2.0 200 OK\r\nFrom: <sip:a@h>\r\nTo: <sip:b@h>\r\nCall-ID: " ++
      ascii callId ++ ascii "\r\n\r\n")

/-- A response is captured before the INVITE of its call: the INVITE is not recorded. -/
theorem matching_recorded_false :
    let p : Packet := .captured 1001 (invite "x")
    let s := (loop Options.raw Host.numbering).run Options.raw.start
      [.packet (.captured 1000 (response "x"))]
    let s' := (loop Options.raw Host.numbering).next s (.packet p)
    (∃ ip msg, branch Options.raw p (afterPass s (.packet p)).world = .sip ip msg ∧
        msg.callId = some (ascii "x") ∧ Options.raw.methodFilter msg.method) ∧
      RecordsAll Options.raw Host.numbering ∧
      s'.world.ct.findByCallId (ascii "x") = some 0 ∧ (s'.world.slot 0).fPcap = none ∧
      s'.world.written = s.world.written := by
  intro p s s'
  refine ⟨?_, recordsAll_raw, by decide +kernel⟩
  obtain ⟨ip, msg, hb, hm, hid⟩ := exists_of_message (show (branch Options.raw p
    (afterPass s (.packet p)).world).message.map
      (fun msg => (msg.method, msg.callId)) = some (ascii "INVITE", some (ascii "x")) by
    decide +kernel)
  refine ⟨ip, msg, hb, hid, ?_⟩
  rw [hm]
  decide

end PcapSipDump
