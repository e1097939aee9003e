import PcapSipDump.Capture.MediaFiles

/-!
# What the mode `rtp+rtcp` records of what the mode `rtp` records

With `-R rtp+rtcp` the lookups clear the lowest bit of both ports of a packet, and read the SSRC
where an RTCP packet has it if both ports are odd.  The ports that a message announces are
registered as they are, so a flow with an odd port is not found in this mode.  The packets that
both modes record are those for which the lookups of both lead to the same call
(`rtcp_mode_records_iff`), among them all packets with even ports (`lookupFlow_of_even`).
-/

namespace PcapSipDump

open Lib Lib.CString

variable {o : Options} {host : Host} {w : World} {p : Packet}

/-- The settings with another mode of `-R`. -/
def Options.withRtpsave (o : Options) (mode : RtpSave) : Options := { o with optRtpsave := mode }

/-- The mode has no part in whether a packet is a later fragment. -/
lemma laterFragment_withRtpsave (o : Options) (mode : RtpSave) (p : Packet) :
    laterFragment (o.withRtpsave mode) p = laterFragment o p := rfl

/-- From `s` to `s'` one packet is dumped, into the file `f`. -/
def DumpsInto (f : Handle) (s s' : State) : Prop :=
  ∃ via r, s'.world.written = s.world.written ++ [(via, f, r)]

/-- The lookups of the packet lead to the element with index `i`: they find a flow of it, or
they find none and the payload is a message of its call. -/
def LeadsTo (o : Options) (p : Packet) (ip i : ℕ) (ct : Calltable) : Prop :=
  (∃ f, f.1 = i ∧ LookupFlow o p.mem ip ct f) ∨
    (∀ f, ¬LookupFlow o p.mem ip ct f) ∧
      ∃ method callId, sipMethod (p.mem.drop (dataPos p.mem ip)) = some method ∧
        (readSip o p.terminate (dataPos p.mem ip) method).callId = some callId ∧
        ct.findByCallId callId = some i

/-! ### Even ports -/

/-- Clearing the lowest bit of an even port changes nothing. -/
lemma and_portMask_of_even {port : UInt16} (h : port &&& 1 = 0) (mode : RtpSave) :
    port &&& mode.portMask = port := by
  have hones : port &&& 0xffff = port := UInt16.and_neg_one
  cases mode with
  | rtpRtcp =>
    have hbit : port.toBitVec &&& 1#16 = 0#16 := congrArg UInt16.toBitVec h
    have hall : port.toBitVec &&& 0xffff#16 = port.toBitVec := BitVec.and_allOnes
    have hmask : port.toBitVec &&& 0xfffe#16 = port.toBitVec := by
      calc port.toBitVec &&& 0xfffe#16
          = port.toBitVec &&& 0xfffe#16 ||| port.toBitVec &&& 1#16 := by rw [hbit, BitVec.or_zero]
        _ = port.toBitVec &&& (0xfffe#16 ||| 1#16) := BitVec.and_or_distrib_left.symm
        _ = port.toBitVec := hall
    exact UInt16.toBitVec_inj.mp hmask
  | _ => exact hones

/-- **Even ports.**  For a packet with even ports the lookups of the modes `rtp` and `rtp+rtcp`
find the same. -/
theorem lookupFlow_of_even {m : Bytes} {ip : ℕ} (hsource : sourcePort m ip &&& 1 = 0)
    (hdest : destPort m ip &&& 1 = 0) (ct : Calltable) (f : Flow) :
    LookupFlow (o.withRtpsave .rtpRtcp) m ip ct f ↔ LookupFlow (o.withRtpsave .rtp) m ip ct f := by
  have hdst : ∀ mode, dstPair (o.withRtpsave mode) m ip = (hdaddr m ip, destPort m ip) :=
    fun mode => Prod.ext rfl (and_portMask_of_even hdest mode)
  have hsrc : ∀ mode, srcPair (o.withRtpsave mode) m ip = (hsaddr m ip, sourcePort m ip) :=
    fun mode => Prod.ext rfl (and_portMask_of_even hsource mode)
  have hssrc : packetSsrc (o.withRtpsave .rtpRtcp) m ip = packetSsrc (o.withRtpsave .rtp) m ip := by
    simp [packetSsrc, Options.withRtpsave, hsource]
  simp only [LookupFlow, hdst, hsrc, hssrc]

/-! ### The two modes on one packet -/

/-- What is dumped through an element goes into the file of the element. -/
lemma exists_dump_iff {x : Option Handle} {via : Via} {r : Record} {f : Handle} :
    (∃ via' r', x.toList.map (fun h => (via, h, r)) = [(via', f, r')]) ↔ x = some f := by
  rcases x with _ | h
  · simp
  · simp

/-- Only one element has a given dumper. -/
lemma Owns.fPcap_eq_iff (h : Owns w) {i : ℕ} {f : Handle} (hf : (w.slot i).fPcap = some f)
    (k : ℕ) : (w.slot k).fPcap = some f ↔ k = i := by
  constructor
  · intro hk
    exact h.inj k i f hk hf
  · rintro rfl
    exact hf

/-- A packet of a flow is dumped into the file of the flow's element and no other. -/
lemma exists_rtp_dump_iff {s : State} (hevent : o.optRtpsave ≠ .rtpEvent) (h : Owns s.world)
    {i : ℕ} {f : Handle} (hf : (s.world.slot i).fPcap = some f) (ip : ℕ) (g : Flow) :
    (∃ via r, (Branch.rtp ip g).dumps o host p s = [(via, f, r)]) ↔ g.1 = i := by
  have hsaves : ∀ data, savesPayload o data (s.world.slot g.1) = true := by
    intro data
    simp [savesPayload, hevent]
  rw [Branch.dumps, if_pos (hsaves _), exists_dump_iff]
  exact h.fPcap_eq_iff hf g.1

/-- A message is dumped into a file that is open already just if the file is that of its call. -/
lemma exists_sip_dump_iff {s : State} (h : Owns s.world) {i : ℕ} {f : Handle}
    (hf : (s.world.slot i).fPcap = some f) {ip : ℕ} {msg : SipMessage}
    (hb : branch o p s.world = .sip ip msg) :
    (∃ via r, (Branch.sip ip msg).dumps o host p s = [(via, f, r)]) ↔
      ∃ callId, msg.callId = some callId ∧ s.world.ct.findByCallId callId = some i := by
  constructor
  · rintro ⟨via, r, hdump⟩
    rcases findOrAdd_cases o host msg p.ts s with he | ⟨callId, hid, ⟨k, hk, he⟩ | ⟨hnew, he⟩⟩
    · simp only [Branch.dumps, he] at hdump
      cases hdump
    · -- the call is in the table
      simp only [Branch.dumps, he] at hdump
      obtain rfl := (h.fPcap_eq_iff hf k).mp (exists_dump_iff.mp ⟨via, r, hdump⟩)
      exact ⟨callId, hid, hk⟩
    · -- a call that is added is given an element that had no file, and a file of its own
      have hvia : via = .sip s.world.ct.addIdx := by
        simp only [Branch.dumps, he] at hdump
        obtain ⟨f', -, heq⟩ := List.mem_map.mp (hdump ▸ List.mem_singleton_self _)
        exact (congrArg Prod.fst heq).symm
      have hmem : (via, f, r) ∈ (branch o p s.world).dumps o host p s := by
        rw [hb, hdump]
        exact List.mem_singleton_self _
      have hadded := (fPcap_of_dumps o host p h.tableInv hmem (Or.inr hvia)).2
      have hkept : ((dispatch o host p s).world.slot i).fPcap = some f :=
        fPcap_dispatch h.tableInv hf
      obtain rfl := (h.dispatch host p).inj _ _ f hadded hkept
      have hused := h.tableInv.used_of_fPcap hf
      rw [s.world.ct.isUsed_addIdx] at hused
      exact absurd hused (by decide)
  · rintro ⟨callId, hid, hk⟩
    simp only [Branch.dumps, findOrAdd_found hid hk]
    exact exists_dump_iff.mpr hf

/-- What an admitted packet dumps into the file of an element, it dumps there because its lookups
lead to the element. -/
lemma exists_admitted_dump_iff (host : Host) {s : State} {ip : ℕ} (hsave : o.optRtpsave = .rtpRtcp)
    (h : Owns s.world) (hadm : branch o p s.world = admittedBranch o p ip s.world) {i : ℕ}
    {f : Handle} (hf : (s.world.slot i).fPcap = some f) :
    (∃ via r, (branch o p s.world).dumps o host p s = [(via, f, r)]) ↔
      LeadsTo o p ip i s.world.ct := by
  have hfinds : ∀ g, (rtpLookup o p.mem ip s.world).1 = some g ↔
      LookupFlow o p.mem ip s.world.ct g := by
    intro g
    exact rtpLookup_eq_some_iff (by rw [hsave]; decide) p.mem ip s.world g
  rcases hl : (rtpLookup o p.mem ip s.world).1 with _ | g
  · have hnone : ∀ g, ¬LookupFlow o p.mem ip s.world.ct g := by
      intro g hg
      rw [← hfinds, hl] at hg
      cases hg
    rcases hm : sipMethod (p.mem.drop (dataPos p.mem ip)) with _ | method
    · -- neither media nor SIP
      have hb : branch o p s.world = .skip := by
        simp only [hadm, admittedBranch, hl, hm]
      rw [hb]
      constructor
      · rintro ⟨via, r, hdump⟩
        cases hdump
      · rintro (⟨g, -, hg⟩ | ⟨-, method, callId, hmethod, -⟩)
        · exact absurd hg (hnone g)
        · rw [hm] at hmethod
          cases hmethod
    · have hb : branch o p s.world =
          .sip ip (readSip o p.terminate (dataPos p.mem ip) method) := by
        simp only [hadm, admittedBranch, hl, hm]
      rw [hb, exists_sip_dump_iff h hf hb]
      constructor
      · rintro ⟨callId, hid, hk⟩
        exact Or.inr ⟨hnone, method, callId, hm, hid, hk⟩
      · rintro (⟨g, -, hg⟩ | ⟨-, method', callId, hmethod, hid, hk⟩)
        · exact absurd hg (hnone g)
        · obtain rfl : method = method' := Option.some.inj (hm.symm.trans hmethod)
          exact ⟨callId, hid, hk⟩
  · have hb : branch o p s.world = .rtp ip g := by
      simp only [hadm, admittedBranch, hl]
    rw [hb, exists_rtp_dump_iff (by rw [hsave]; decide) h hf]
    constructor
    · rintro rfl
      exact Or.inl ⟨g, rfl, (hfinds g).mp hl⟩
    · rintro (⟨g', hg', hfind⟩ | ⟨hnone, -⟩)
      · obtain rfl : g = g' := Option.some.inj (hl.symm.trans ((hfinds g').mpr hfind))
        exact hg'
      · exact absurd ((hfinds g).mp hl) (hnone g)

/-- **What `rtp+rtcp` records of what `rtp` records.**  In every state that the capture loop
reaches, a packet that the mode `rtp` would dump through its lookups into the file of an element
is dumped into this file with the mode `rtp+rtcp` if and only if the lookups of this mode lead to
the same element. -/
theorem rtcp_mode_records_iff (o : Options) (host : Host) (inputs : List Input) (p : Packet)
    (ip i : ℕ) (f : Handle) (r : Record) (hip : headerIp o.dlt p.mem = some ip)
    (hrtp : let s := (loop o host).run o.start inputs
      ((loop (o.withRtpsave .rtp) host).next s (.packet p)).world.written =
        s.world.written ++ [(.rtp i, f, r)]) :
    let s := (loop o host).run o.start inputs
    DumpsInto f s ((loop (o.withRtpsave .rtpRtcp) host).next s (.packet p)) ↔
      LeadsTo (o.withRtpsave .rtpRtcp) p ip i (afterPass s (.packet p)).world.ct := by
  intro s
  obtain ⟨t, ht⟩ : ∃ t, t = afterPass s (.packet p) := ⟨_, rfl⟩
  have howns : Owns t.world := ht ▸ (owns_run o host inputs).afterPass _
  have hwritten : ∀ mode, ((loop (o.withRtpsave mode) host).next s (.packet p)).world.written =
      s.world.written ++
        (branch (o.withRtpsave mode) p t.world).dumps (o.withRtpsave mode) host p t := by
    intro mode
    subst ht
    exact written_loop (o.withRtpsave mode) host howns.tableInv
  -- what the mode `rtp` says about the packet and the element
  have hdump : (branch (o.withRtpsave .rtp) p t.world).dumps (o.withRtpsave .rtp) host p t =
      [(.rtp i, f, r)] := List.append_cancel_left ((hwritten .rtp).symm.trans hrtp)
  obtain ⟨ip', j, hb⟩ := branch_of_dumps_rtp (hdump ▸ List.mem_singleton_self _)
  obtain ⟨hrtpFragment, hip', hadm, -⟩ := of_branch_rtp hb
  obtain rfl : ip = ip' := Option.some.inj (hip.symm.trans hip')
  have hfile : (t.world.slot i).fPcap = some f := by
    rw [hb, Branch.dumps] at hdump
    split at hdump
    · exact exists_dump_iff.mp ⟨_, _, hdump⟩
    · cases hdump
  have hlater : laterFragment (o.withRtpsave .rtpRtcp) p = none := by
    rw [laterFragment_withRtpsave] at hrtpFragment ⊢
    exact hrtpFragment
  have hbranch : branch (o.withRtpsave .rtpRtcp) p t.world =
      admittedBranch (o.withRtpsave .rtpRtcp) p ip t.world :=
    branch_of_admitted hlater hip hadm _
  rw [← ht, ← exists_admitted_dump_iff host rfl howns hbranch hfile, DumpsInto]
  simp only [hwritten, List.append_cancel_left_eq]

/-- Media from an even port to an even port that a call has announced. -/
theorem rtcp_mode_records_even_ports :
    let s := (loop Options.raw Host.numbering).run Options.raw.start
      [.packet (.captured 1000 (invite "x"))]
    DumpsInto 1 s ((loop (Options.raw.withRtpsave .rtpRtcp) Host.numbering).next s
      (.packet (.captured 1001 (media 4000 5)))) := by
  intro s
  have hiff := rtcp_mode_records_iff Options.raw Host.numbering
    [.packet (.captured 1000 (invite "x"))] (.captured 1001 (media 4000 5)) 0 0 1
    (Packet.captured 1001 (media 4000 5)).record (by decide +kernel) (by decide +kernel)
  have hs : (loop Options.raw Host.numbering).run Options.raw.start
      [.packet (.captured 1000 (invite "x"))] = s := rfl
  have hfound : (rtpLookup (Options.raw.withRtpsave .rtp) (Packet.captured 1001 (media 4000 5)).mem
      0 (afterPass s (.packet (.captured 1001 (media 4000 5)))).world).1 = some (0, 0) := by
    decide +kernel
  have heven : sourcePort (Packet.captured 1001 (media 4000 5)).mem 0 &&& 1 = 0 ∧
      destPort (Packet.captured 1001 (media 4000 5)).mem 0 &&& 1 = 0 := by
    decide +kernel
  rw [hs] at hiff
  clear_value s
  have hflow := (rtpLookup_eq_some_iff (by decide) _ _ _ _).mp hfound
  exact hiff.mpr (Or.inl ⟨(0, 0), rfl, (lookupFlow_of_even heven.1 heven.2 _ _).mpr hflow⟩)

/-- A call announces the port 4001.  Media from the port 6000 to this port is dumped with the mode
`rtp`, and not with the mode `rtp+rtcp`, in which the lookup is made with the port 4000. -/
theorem rtcp_mode_records_false :
    let p : Packet := .captured 1001 (media 4001 5)
    let s := (loop Options.raw Host.numbering).run Options.raw.start
      [.packet (.captured 1000 (ipv4Udp 1 0 [10, 0, 0, 1] [10, 0, 0, 2] 5060 5060
        (sipRequest "INVITE" "x" (sdpBody "10.0.0.1" "4001"))))]
    ((loop (Options.raw.withRtpsave .rtp) Host.numbering).next s (.packet p)).world.written =
        s.world.written ++ [(.rtp 0, 1, p.record)] ∧
      ((loop (Options.raw.withRtpsave .rtpRtcp) Host.numbering).next s (.packet p)).world.written =
        s.world.written := by
  decide +kernel

end PcapSipDump
