import PcapSipDump.Capture.ArchiveRefinement
import PcapSipDump.Capture.CaptureBounds
import PcapSipDump.Capture.CaptureFiles
import PcapSipDump.Capture.MessageText

/-!
# Packets that are read again

A packet in a file has the time, the lengths and the captured bytes of the packet that was dumped;
what lies behind the captured bytes may be other.  As far as the dissector has stayed within the
captured bytes, the reading of the packet is the same (`reading_fragment_reread`,
`reading_media_reread`, `reading_message_reread`), and so is the message in it but for
`rtpmap_event`: `sdp_get_rtpmap_event` may compare bytes behind the NUL.
-/

namespace PcapSipDump

open Lib Lib.CString

variable {o : Options} {p q : Packet} {w : World}

/-! ### The message in a packet -/

/-- **A message is read again** from the bytes that have been captured of it. -/
theorem readSip_alike (hr : q.record = p.record) (h : p.caplen ≤ p.len.toNat)
    (hshort : p.caplen < 2 ^ 31) {data : ℕ} (hdata : data ≤ p.caplen) (method : Bytes) :
    (readSip o p.terminate data method).Alike (readSip o q.terminate data method) := by
  have hbytes : q.bytes = p.bytes := congrArg Record.bytes hr
  have hlen : q.len = p.len := congrArg Record.len hr
  have hcaplen : q.caplen = p.caplen := congrArg List.length hbytes
  -- both payloads are what is captured of them
  have hcarries : ∀ {x : Packet}, x.bytes = p.bytes → x.len = p.len →
      x.Carries data (p.bytes.drop data) := by
    intro x hx hxlen
    refine ⟨?_, ?_⟩
    · rw [List.length_drop, hxlen, Packet.caplen, hx]
      show data + (p.caplen - data) = min p.len.toNat p.caplen
      omega
    · rw [Packet.mem, hx, List.drop_append_of_le_length hdata]
      exact List.prefix_append _ _
  have hlt : (p.bytes.drop data).length < 2 ^ 31 := by
    rw [List.length_drop]
    exact lt_of_le_of_lt (Nat.sub_le _ _) hshort
  exact (readSip_of_carries (hcarries rfl rfl) hlt method).trans
    (readSip_of_carries (hcarries hbytes hlen) hlt method).symm

/-! ### The dissection -/

section Dissection

open Dissector Lib.Reads

variable {ip : ℕ} {α : Type} {r : Reads α}

/-- **What is read of captured bytes** is read of them again. -/
lemma value_reread (hr : q.record = p.record) (h : r.Within p.caplen p.mem) :
    r.value q.mem = r.value p.mem := by
  rw [Packet.mem, show q.bytes = p.bytes from congrArg Record.bytes hr]
  exact Reads.value_of_within h q.beyond

lemma caplen_reread (hr : q.record = p.record) : q.caplen = p.caplen :=
  congrArg (fun r : Record => r.bytes.length) hr

/-- The IP header is where it was. -/
lemma headerIp_reread (hr : q.record = p.record) (h : FrameCaptured o w p) :
    headerIp o.dlt q.mem = headerIp o.dlt p.mem := by
  have hlink := value_reread hr ((within_linkHeader o).mpr h.tags)
  have hq := value_linkHeader q.mem o
  have hp := value_linkHeader p.mem o
  rw [hlink] at hq
  rcases hl : (linkHeader o).value p.mem with _ | link
  · rw [hl] at hq hp
    exact hq.symm.trans hp
  · rw [hl] at hq hp
    have htunnel : (Dissector.skipTunnelIpHeader link).Within p.caplen p.mem :=
      within_tunnel (h.header _ hp.symm).fragment6
    have hskip := value_reread hr htunnel
    rw [value_skipTunnelIpHeader, value_skipTunnelIpHeader] at hskip
    rw [← hq, ← hp, Option.map_some, Option.map_some, hskip]

/-- The tests for fragments, the keys, and the end marks are what they were. -/
lemma laterFragment_reread (hr : q.record = p.record) (h : FrameCaptured o w p) :
    laterFragment o q = laterFragment o p := by
  rw [laterFragment, laterFragment, headerIp_reread hr h]
  rcases hip : headerIp o.dlt p.mem with _ | ip
  · rfl
  have hwithin := (within_dispatchIp o ip w p).mpr (h.header ip hip)
  rw [dispatchIp, within_bind, value_isLaterFragment4, within_ite] at hwithin
  obtain ⟨h4, hrest⟩ := hwithin
  have hlater4 := value_reread hr h4
  rw [value_isLaterFragment4, value_isLaterFragment4] at hlater4
  dsimp only
  rw [hlater4]
  by_cases hl4 : isLaterFragment4 p.mem ip
  · rw [if_pos hl4, fragment, within_bind] at hrest
    have hkey := value_reread hr hrest.1
    have hversion : ipVersion p.mem ip = 4 := by
      rw [isLaterFragment4, Bool.and_eq_true, decide_eq_true_eq] at hl4
      exact hl4.1
    have hflag := value_reread (r := Dissector.be16 (ip + 6)) hr
      ((within_be16 _).mpr (((within_isLaterFragment4 ip).mp h4).2 hversion))
    rw [value_addrAddrId4, value_addrAddrId4] at hkey
    rw [value_be16, value_be16] at hflag
    rw [if_pos hl4, if_pos hl4, hkey, isLastFragment4, isLastFragment4, fragOff, fragOff, hflag]
  rw [if_neg hl4, within_bind, value_isLaterFragment6, within_ite] at hrest
  obtain ⟨h6, hrest⟩ := hrest
  have hlater6 := value_reread hr h6
  rw [value_isLaterFragment6, value_isLaterFragment6] at hlater6
  rw [if_neg hl4, if_neg hl4, hlater6]
  by_cases hl6 : isLaterFragment6 p.mem ip
  · rw [if_pos hl6, fragment, within_bind] at hrest
    have hkey := value_reread hr hrest.1
    obtain ⟨hfrag, hudp⟩ := of_isLaterFragment6 ip hl6
    have hflag := value_reread (r := Dissector.be16 (ip + 42)) hr
      ((within_be16 _).mpr ((((within_isLaterFragment6 ip).mp h6).2 hfrag).2 hudp))
    rw [value_addrAddrId6, value_addrAddrId6] at hkey
    rw [value_be16, value_be16] at hflag
    rw [if_pos hl6, if_pos hl6, hkey, isLastFragment6, isLastFragment6, hflag]
  · rw [if_neg hl6, if_neg hl6]

/-- The payload of a packet that is no later fragment. -/
lemma payload_reread (hr : q.record = p.record) (h : FrameCaptured o w p)
    (hlater : laterFragment o p = none) (hip : headerIp o.dlt p.mem = some ip) :
    isAdmitted o.useTcp o.dlt q.caplen q.mem ip = isAdmitted o.useTcp o.dlt p.caplen p.mem ip ∧
      (isAdmitted o.useTcp o.dlt p.caplen p.mem ip → PayloadCaptured o w p.mem p.caplen ip ∧
        headerUdp q.mem ip = headerUdp p.mem ip ∧ dataPos q.mem ip = dataPos p.mem ip) := by
  have hheader := h.header ip hip
  have hadm := value_reread hr
    ((within_isAdmitted ip o.useTcp o.dlt p.caplen hheader.fragment6).mpr hheader.protocol)
  rw [value_isAdmitted, value_isAdmitted, ← caplen_reread hr] at hadm
  refine ⟨hadm.trans (by rw [caplen_reread hr]), fun hyes => ?_⟩
  obtain ⟨hl4, hl6⟩ := (laterFragment_eq_none_iff hip).mp hlater
  have hpayload := hheader.payload hl4 hl6 hyes
  have h4 : ipVersion p.mem ip = 4 → ip + 10 ≤ p.caplen :=
    fun hv => hheader.protocol (looksAtProtocol_of_isAdmitted ip hyes hv)
  have hheaderUdp := value_reread hr (within_headerUdp ip hheader.fragment6)
  rw [value_headerUdp, value_headerUdp] at hheaderUdp
  have hdata := value_reread hr
    ((within_dataPos ip (headerUdp p.mem ip) hheader.fragment6 h4).mpr hpayload.doff)
  rw [← hheaderUdp, value_dataPos, hheaderUdp, value_dataPos] at hdata
  exact ⟨hpayload, hheaderUdp, hdata⟩

/-- The flows that the packet is looked up by, and its SSRC. -/
lemma lookup_reread (hr : q.record = p.record) (hp : PayloadCaptured o w p.mem p.caplen ip)
    (hheader : headerUdp q.mem ip = headerUdp p.mem ip)
    (hdata : dataPos q.mem ip = dataPos p.mem ip) :
    lookupFlows o q.mem ip = lookupFlows o p.mem ip ∧
      (o.optRtpsave ≠ .none → packetSsrc o q.mem ip = packetSsrc o p.mem ip) := by
  have hports := hp.ports
  have hsource := value_reread (r := Dissector.be16 (headerUdp p.mem ip)) hr
    ((within_be16 _).mpr (by omega))
  have hdest := value_reread (r := Dissector.be16 (headerUdp p.mem ip + 2)) hr
    ((within_be16 _).mpr (by omega))
  rw [value_be16, value_be16] at hsource hdest
  have hsourcePort : sourcePort q.mem ip = sourcePort p.mem ip := by
    rw [sourcePort, hheader, hsource, sourcePort]
  have hdestPort : destPort q.mem ip = destPort p.mem ip := by
    rw [destPort, hheader, hdest, destPort]
  obtain ⟨hsrc, hdst⟩ := within_addr ip hports
  have hsaddr := value_reread hr hsrc
  have hdaddr := value_reread hr hdst
  rw [value_hsaddr, value_hsaddr] at hsaddr
  rw [value_hdaddr, value_hdaddr] at hdaddr
  refine ⟨?_, fun hsave => ?_⟩
  · simp only [lookupFlows, dstPair, srcPair, hsourcePort, hdestPort, hsaddr, hdaddr]
  · have hend := hp.ssrc hsave
    have hssrc := value_reread (r := Dissector.getSsrc (dataPos p.mem ip)
      (o.optRtpsave = .rtpRtcp && sourcePort p.mem ip &&& 1 ≠ 0 &&
        destPort p.mem ip &&& 1 ≠ 0)) hr
      ((within_getSsrc _ _).mpr (by
        rw [ssrcEnd] at hend
        simpa only [Bool.and_eq_true, decide_eq_true_eq, and_assoc] using hend))
    rw [value_getSsrc, value_getSsrc] at hssrc
    rw [packetSsrc, hsourcePort, hdestPort, hdata, hssrc, packetSsrc]

/-! ### The reading -/

/-- **A fragment** is read as the fragment that it was. -/
theorem reading_fragment_reread (hr : q.record = p.record) (h : FrameCaptured o w p)
    {aai : AddrAddrId} {last : Bool} (hp : reading o p = .fragment aai last) :
    reading o q = .fragment aai last := by
  rcases branch_reading o p w with ⟨hother, -⟩ | ⟨aai', last', hfrag, hb⟩ | ⟨ip, message, hpay, -⟩
  · rw [hother] at hp
    cases hp
  · obtain ⟨rfl, rfl⟩ := Reading.fragment.inj (hfrag.symm.trans hp)
    have hlater := laterFragment_of_branch hb
    rw [reading, laterFragment_reread hr h, hlater]
  · rw [hpay] at hp
    cases hp

/-- A packet whose payload is looked at. -/
lemma of_reading_payload {flows : List IpPort} {ssrc : UInt32} {pt : UInt8}
    {message : Option SipMessage} {datagram : Option AddrAddrId}
    (h : reading o p = .payload flows ssrc pt message datagram) :
    ∃ ip, laterFragment o p = none ∧ headerIp o.dlt p.mem = some ip ∧
      isAdmitted o.useTcp o.dlt p.caplen p.mem ip ∧ flows = lookupFlows o p.mem ip ∧
      ssrc = packetSsrc o p.mem ip ∧ pt = u8 (p.mem.drop (dataPos p.mem ip)) 1 ∧
      message = (sipMethod (p.mem.drop (dataPos p.mem ip))).map
        (readSip o p.terminate (dataPos p.mem ip)) ∧ datagram = recordKey p.terminate.mem ip := by
  unfold reading at h
  rcases hl : laterFragment o p with _ | ⟨aai, last⟩ <;> simp only [hl] at h
  · rcases hip : headerIp o.dlt p.mem with _ | ip <;> simp only [hip] at h
    · cases h
    · by_cases hadm : isAdmitted o.useTcp o.dlt p.caplen p.mem ip
      · rw [if_pos hadm] at h
        obtain ⟨rfl, rfl, rfl, rfl, rfl⟩ := Reading.payload.inj h
        exact ⟨ip, rfl, rfl, hadm, rfl, rfl, rfl, rfl, rfl⟩
      · rw [if_neg hadm] at h
        cases h
  · cases h

/-- **A media packet** is looked up by the same flows with the same SSRC. -/
theorem reading_media_reread (hr : q.record = p.record) (h : FrameCaptured o w p)
    (hsave : o.optRtpsave ≠ .none) {flows : List IpPort} {ssrc : UInt32} {pt : UInt8}
    {message : Option SipMessage} {datagram : Option AddrAddrId}
    (hp : reading o p = .payload flows ssrc pt message datagram) :
    ∃ pt' message' datagram', reading o q = .payload flows ssrc pt' message' datagram' := by
  obtain ⟨ip, hlater, hip, hadm, rfl, rfl, -⟩ := of_reading_payload hp
  obtain ⟨hadm', hpayload⟩ := payload_reread hr h hlater hip
  obtain ⟨hcaptured, hheader, hdata⟩ := hpayload hadm
  obtain ⟨hflows, hssrc⟩ := lookup_reread hr hcaptured hheader hdata
  rw [reading, laterFragment_reread hr h, hlater, headerIp_reread hr h, hip]
  dsimp only
  rw [hadm', if_pos hadm, hflows, hssrc hsave]
  exact ⟨_, _, _, rfl⟩

/-- **A message** is looked up by the same flows, and read as the same message. -/
theorem reading_message_reread (hr : q.record = p.record) (h : FrameCaptured o w p)
    (hlen : p.caplen ≤ p.len.toNat) (hshort : p.caplen < 2 ^ 31) {flows : List IpPort}
    {ssrc : UInt32} {pt : UInt8} {msg : SipMessage} {datagram : Option AddrAddrId}
    (hp : reading o p = .payload flows ssrc pt (some msg) datagram)
    (hflows : ∀ f ∈ flows, w.ct.findFlow f.1 f.2 ssrc = none) :
    ∃ ssrc' pt' msg', reading o q = .payload flows ssrc' pt' (some msg') datagram ∧
      msg.Alike msg' ∧ (flows ≠ [] → ssrc' = ssrc) := by
  obtain ⟨ip, hlater, hip, hadm, rfl, rfl, -, hmsg, rfl⟩ := of_reading_payload hp
  obtain ⟨hadm', hpayload⟩ := payload_reread hr h hlater hip
  obtain ⟨hcaptured, hheader, hdata⟩ := hpayload hadm
  obtain ⟨hflows', hssrc⟩ := lookup_reread hr hcaptured hheader hdata
  have hnone : (rtpLookup o p.mem ip w).1 = none := by
    by_cases hsave : o.optRtpsave = .none
    · rw [rtpLookup, if_pos hsave]
    · rw [lookupFlows, if_neg hsave] at hflows
      rw [rtpLookup_fst hsave, hflows _ List.mem_cons_self,
        hflows _ (List.mem_cons_of_mem _ List.mem_cons_self)]
      rfl
  have hend := hcaptured.method hnone
  have hmethod := value_reread hr ((within_sipMethod (dataPos p.mem ip)).mpr hend)
  rw [value_sipMethod, value_sipMethod] at hmethod
  obtain ⟨method, hsip, rfl⟩ := Option.map_eq_some_iff.mp hmsg.symm
  -- the key is read after the payload has been terminated
  have hterminated : q.terminate.record = p.terminate.record := by
    have hlen' : q.caplen ≤ q.len.toNat := by
      rw [caplen_reread hr, show q.len = p.len from congrArg Record.len hr]
      exact hlen
    rw [Packet.record_terminate hlen, Packet.record_terminate hlen', hr]
  have hkey : recordKey q.terminate.mem ip = recordKey p.terminate.mem ip := by
    have hcaplen : p.terminate.caplen = p.caplen := caplen_reread (Packet.record_terminate hlen)
    have hports := hcaptured.ports
    have hle := le_headerUdp p.mem ip
    have hwithin : (Dissector.recordKey ip).Within p.terminate.caplen p.terminate.mem := by
      rw [hcaplen]
      refine within_recordKey ip (by split_ifs at hle <;> omega) fun hfrag => ?_
      have hfrag := isFragment6_of_terminate ip hfrag
      rw [headerUdp, if_pos hfrag, if_neg (ipVersion_ne_four (ipVersion_of_isFragment6 hfrag))]
        at hports
      omega
    have hvalue := value_reread hterminated hwithin
    rwa [value_recordKey, value_recordKey] at hvalue
  refine ⟨packetSsrc o q.mem ip, u8 (q.mem.drop (dataPos q.mem ip)) 1,
    readSip o q.terminate (dataPos p.mem ip) method, ?_,
    readSip_alike hr hlen hshort (by omega) method, fun hne => hssrc fun hsave => ?_⟩
  · rw [reading, laterFragment_reread hr h, hlater, headerIp_reread hr h, hip]
    dsimp only
    rw [hadm', if_pos hadm, hflows', hkey, hdata, hmethod, hsip, Option.map_some]
  · rw [lookupFlows, if_pos hsave] at hne
    exact hne rfl

end Dissection

end PcapSipDump
