import PcapSipDump.Capture.Branch
import PcapSipDump.Lib.Reads

/-!
# The reads of the dissector

The dissection of a packet once more, as a computation that reads the packet byte by byte in the
order of the source, with the tests that are skipped when an earlier one has decided.  It comes to
the branch that the capture loop takes (`value_dispatch`).
-/

namespace PcapSipDump

open Lib Lib.CString Lib.Reads

namespace Dissector

/-! ### Fields -/

/-- `ntohs` of the 16-bit word at an offset. -/
def be16 (i : ℕ) : Reads UInt16 := do
  let hi ← read i
  let lo ← read (i + 1)
  return hi.toUInt16 * 256 + lo.toUInt16

/-- The 16-bit word at an offset. -/
def le16 (i : ℕ) : Reads UInt16 := do
  let lo ← read i
  let hi ← read (i + 1)
  return lo.toUInt16 + hi.toUInt16 * 256

/-- `ntohl` of the 32-bit word at an offset. -/
def be32 (i : ℕ) : Reads UInt32 := do
  let hi ← be16 i
  let lo ← be16 (i + 2)
  return hi.toUInt32 * 65536 + lo.toUInt32

/-- The 32-bit word at an offset. -/
def le32 (i : ℕ) : Reads UInt32 := do
  let lo ← le16 i
  let hi ← le16 (i + 2)
  return lo.toUInt32 + hi.toUInt32 * 65536

/-- `memcpy` of `n` bytes. -/
def bytes (i : ℕ) : ℕ → Reads Bytes
  | 0 => return []
  | n + 1 => do
      let c ← read i
      let rest ← bytes (i + 1) n
      return c :: rest

/-- A comparison of the byte at an offset. -/
def byteIs (c : UInt8) (i : ℕ) : Reads Bool := do return (← read i) = c

/-- `header_ip->version == v` -/
def versionIs (v : UInt8) (ip : ℕ) : Reads Bool := do return (← read ip) >>> 4 = v

/-! ### The IP header -/

/-- `pkt_ethertype[i]`, for a frame that starts at `base`. -/
def ethertype (base i : ℕ) : Reads UInt16 := be16 (base + 12 + 2 * i)

/-- `fail:` of `ethernet_get_header_ip`. -/
def unfamiliar (verbosity : ℤ) (base : ℕ) : Reads (Option ℕ) := do
  if 4 ≤ verbosity then
    let _ ← ethertype base 0
    let _ ← ethertype base 1
    let _ ← ethertype base 2
    let _ ← ethertype base 3
    let _ ← ethertype base 4
    let _ ← ethertype base 5
    return none
  else return none

/-- The case `0x8864` of `ethernet_get_header_ip`. -/
def pppoeGetHeaderIp (verbosity : ℤ) (base : ℕ) : Reads (Option ℕ) := do
  let code ← ethertype base 1
  -- the test for LCP reads it if the one for IP does not
  let protocol ← ethertype base 4
  if code = 0x1100 ∧ (protocol = 0x0021 ∨ protocol = 0x0057) then return some (base + 12 + 2 * 5)
  else if protocol = 0xc021 then return none
  else unfamiliar verbosity base

/-- The cases `0x9100` and `0x88a8` of `ethernet_get_header_ip`. -/
def doubleTagged (verbosity : ℤ) : Reads (Option ℕ) := do
  let inner ← ethertype 0 2
  if inner = 0x8100 then
    let innermost ← ethertype 0 4
    if innermost = 0x0800 then return some (12 + 2 * 5) else unfamiliar verbosity 0
  else unfamiliar verbosity 0

/-- `ethernet_get_header_ip` -/
def ethernetGetHeaderIp (verbosity : ℤ) : Reads (Option ℕ) := do
  let type ← ethertype 0 0
  if type = 0x0800 ∨ type = 0x86dd then return some (12 + 2 * 1)
  else if type = 0x8100 then
    let inner ← ethertype 0 2
    if inner = 0x0800 ∨ inner = 0x86dd then return some (12 + 2 * 3)
    else if inner = 0x8864 then
      let _ ← ethertype 4 0
      pppoeGetHeaderIp verbosity 4
    else doubleTagged verbosity
  else if type = 0x9100 ∨ type = 0x88a8 then doubleTagged verbosity
  else if type = 0x8864 then pppoeGetHeaderIp verbosity 0
  else unfamiliar verbosity 0

/-- `skip_tunnel_ip_header` -/
def skipTunnelIpHeader (ip : ℕ) : Reads ℕ := do
  if ← versionIs 6 ip <&&> byteIs 4 (ip + 6) then return ip + 40 else return ip

/-- `header_ip` before `skip_tunnel_ip_header`. -/
def linkHeader (o : Options) : Reads (Option ℕ) :=
  if o.dlt = .en10mb then ethernetGetHeaderIp o.verbosity else return some o.dlt.offsetToIp

/-- `header_ipv6->nexthdr == IPPROTO_FRAGMENT` in an IPv6 packet. -/
def isFragment6 (ip : ℕ) : Reads Bool := versionIs 6 ip <&&> byteIs ipprotoFragment (ip + 6)

/-- The test for an IPv4 fragment other than the first. -/
def isLaterFragment4 (ip : ℕ) : Reads Bool :=
  versionIs 4 ip <&&> (do return (← be16 (ip + 6)) &&& 0x1fff > 0)

/-- The test for an IPv6 fragment other than the first. -/
def isLaterFragment6 (ip : ℕ) : Reads Bool :=
  isFragment6 ip <&&> byteIs ipprotoUdp (ip + 40) <&&>
    (do return (← be16 (ip + 42)) &&& 0xfff8 > 0)

/-- The hash of an IPv6 address. -/
def hashAddr (i : ℕ) : Reads UInt32 := do
  let a ← le32 i
  let b ← le32 (i + 4)
  let c ← le32 (i + 8)
  let d ← le32 (i + 12)
  return a + b * 19 + c * 37 + d * 109

/-- `hsaddr` -/
def hsaddr (ip : ℕ) : Reads UInt32 := do
  if ← versionIs 4 ip then le32 (ip + 12) else hashAddr (ip + 8)

/-- `hdaddr` -/
def hdaddr (ip : ℕ) : Reads UInt32 := do
  if ← versionIs 4 ip then le32 (ip + 16) else hashAddr (ip + 24)

/-- The key of an IPv4 packet in the fragment map. -/
def addrAddrId4 (ip : ℕ) : Reads AddrAddrId := do
  let saddr ← le32 (ip + 12)
  let daddr ← le32 (ip + 16)
  let id ← le16 (ip + 4)
  return ⟨saddr, daddr, id⟩

/-- The key of an IPv6 fragment in the fragment map.  `(uint16_t)frag->id` reads 32 bits. -/
def addrAddrId6 (ip : ℕ) : Reads AddrAddrId := do
  let saddr ← hsaddr ip
  let daddr ← hdaddr ip
  let id ← le32 (ip + 44)
  return ⟨saddr, daddr, id.toUInt16⟩

/-! ### The payload -/

/-- The tests for UDP. -/
def isUdp (ip : ℕ) : Reads Bool :=
  (versionIs 4 ip <&&> byteIs ipprotoUdp (ip + 9)) <||>
    (versionIs 6 ip <&&> byteIs ipprotoUdp (ip + 6)) <||>
    (isFragment6 ip <&&> byteIs ipprotoUdp (ip + 40))

/-- The tests for TCP in a build with `USE_TCP`. -/
def isTcp (dlt : Dlt) (caplen ip : ℕ) : Reads Bool :=
  (versionIs 4 ip <&&> pure (dlt.offsetToIp + 20 + 20 ≤ caplen) <&&>
      byteIs ipprotoTcp (ip + 9)) <||>
    (versionIs 6 ip <&&> pure (dlt.offsetToIp + 40 + 20 ≤ caplen) <&&>
      byteIs ipprotoTcp (ip + 9))

/-- The tests for the RTP and SIP part. -/
def isAdmitted (useTcp : Bool) (dlt : Dlt) (caplen ip : ℕ) : Reads Bool :=
  (versionIs 4 ip <&&> pure (dlt.offsetToIp + 20 + 8 ≤ caplen) <&&>
      byteIs ipprotoUdp (ip + 9)) <||>
    (versionIs 6 ip <&&> pure (dlt.offsetToIp + 40 + 8 ≤ caplen) <&&>
      byteIs ipprotoUdp (ip + 6)) <||>
    (versionIs 6 ip <&&> pure (dlt.offsetToIp + 40 + 8 ≤ caplen) <&&>
      byteIs ipprotoFragment (ip + 6) <&&> byteIs ipprotoUdp (ip + 40)) <||>
    (pure useTcp <&&> isTcp dlt caplen ip)

/-- The position of `header_udp` and `tcph`. -/
def headerUdp (ip : ℕ) : Reads ℕ := do
  let extraLen ← isFragment6 ip
  let v4 ← versionIs 4 ip
  return ip + (if v4 then 20 else 40) + (if extraLen then 8 else 0)

/-- The position of `data`, behind the header at `header`. -/
def dataPos (ip header : ℕ) : Reads ℕ := do
  if ← isUdp ip then return header + 8
  else
    let doff ← read (header + 12)
    return header + (doff >>> 4).toNat * 4

/-- `get_ssrc` -/
def getSsrc (data : ℕ) (isRtcp : Bool) : Reads UInt32 := be32 (data + if isRtcp then 4 else 8)

/-- The lowest bit of the port at an offset. -/
def isOdd (i : ℕ) : Reads Bool := do return (← be16 i) &&& 1 ≠ 0

/-- `is_rtcp` -/
def isRtcp (o : Options) (header : ℕ) : Reads Bool :=
  pure (o.optRtpsave = .rtpRtcp) <&&> isOdd header <&&> isOdd (header + 2)

/-- The two lookups of an RTP packet. -/
def rtpLookup (o : Options) (ct : Calltable) (ip header data : ℕ) : Reads (Option Flow) := do
  if o.optRtpsave = .none then return none
  else
    let rtcp ← isRtcp o header
    let addr ← hdaddr ip
    let port ← be16 (header + 2)
    let ssrc ← getSsrc data rtcp
    match ct.findFlow addr (port &&& o.optRtpsave.portMask) ssrc with
    | some f => return some f
    | none =>
        let addr ← hsaddr ip
        let port ← be16 header
        let ssrc ← getSsrc data rtcp
        return ct.findFlow addr (port &&& o.optRtpsave.portMask) ssrc

/-- `get_method(..) || !memcmp(data, "SIP/2.0 ", ..)` -/
def sipMethod (data : ℕ) : Reads (Option Bytes) := do
  match PcapSipDump.getMethod (← bytes data 9) with
  | some method => return some method
  | none => return if (← bytes data 8) = ascii "SIP/2.0 " then some [] else none

/-! ### The dispatch -/

/-- The branches of the capture loop, with what the dissection finds out. -/
inductive Kind where
  | skip
  | fragment (aai : AddrAddrId)
  | rtp (ip : ℕ) (f : Flow)
  | sip (ip : ℕ) (method : Bytes)

/-- The addresses and ports in `Skipping udp packet`. -/
def printSkipped (ip header : ℕ) : Reads Unit := do
  let _ ← if ← versionIs 4 ip then bytes (ip + 12) 8 else bytes (ip + 8) 32
  let _ ← be16 header
  let _ ← be16 (header + 2)

/-- The branch for an admitted packet. -/
def admitted (o : Options) (ct : Calltable) (ip : ℕ) : Reads Kind := do
  let header ← headerUdp ip
  let data ← dataPos ip header
  match ← rtpLookup o ct ip header data with
  | some f =>
      if (ct.slot f.1).fPcap.isSome ∧ o.optRtpsave = .rtpEvent then
        let _ ← read (data + 1)
      return .rtp ip f
  | none =>
      match ← sipMethod data with
      | some method => return .sip ip method
      | none =>
          if 4 ≤ o.verbosity then printSkipped ip header
          return .skip

/-- The branches for fragments other than the first.  `more` is where the flag for more fragments
is, which is read if there is a file. -/
def fragment (ct : Calltable) (key : Reads AddrAddrId) (more : ℕ) : Reads Kind := do
  let aai ← key
  if (ct.getIpfrag aai).1.isSome then
    let _ ← be16 more
  return .fragment aai

/-- The dispatch on a packet with its IP header at `ip`. -/
def dispatchIp (o : Options) (ct : Calltable) (caplen ip : ℕ) : Reads Kind := do
  if ← isLaterFragment4 ip then fragment ct (addrAddrId4 ip) (ip + 6)
  else if ← isLaterFragment6 ip then fragment ct (addrAddrId6 ip) (ip + 42)
  else if ← isAdmitted o.useTcp o.dlt caplen ip then admitted o ct ip
  else return .skip

/-- The dispatch of the capture loop on a packet of which `caplen` bytes are captured. -/
def dispatch (o : Options) (ct : Calltable) (caplen : ℕ) : Reads Kind := do
  match ← linkHeader o with
  | none => return .skip
  | some link =>
      let ip ← skipTunnelIpHeader link
      dispatchIp o ct caplen ip

/-- The reads of the SIP branch for the fragment map. -/
def recordKey (ip : ℕ) : Reads (Option AddrAddrId) := do
  if ← versionIs 4 ip <&&> (do return (← be16 (ip + 6)) = 0x2000) then
    let aai ← addrAddrId4 ip
    return some aai
  else if ← isFragment6 ip then
    let aai ← addrAddrId6 ip
    return some aai
  else return none

/-! ### The results -/

section Values

variable (m : Bytes) (o : Options) (ip i : ℕ)

@[simp] lemma value_be16 : (be16 i).value m = PcapSipDump.be16 m i := by
  simp [be16, PcapSipDump.be16, u8]

@[simp] lemma value_le16 : (le16 i).value m = PcapSipDump.le16 m i := by
  simp [le16, PcapSipDump.le16, u8]

@[simp] lemma value_be32 : (be32 i).value m = PcapSipDump.be32 m i := by
  simp [be32, PcapSipDump.be32]

@[simp] lemma value_le32 : (le32 i).value m = PcapSipDump.le32 m i := by
  simp [le32, PcapSipDump.le32]

@[simp] lemma value_byteIs (c : UInt8) : (byteIs c i).value m = decide (u8 m i = c) := by
  simp [byteIs, u8]

@[simp] lemma value_versionIs (v : UInt8) :
    (versionIs v ip).value m = decide (ipVersion m ip = v) := by
  simp [versionIs, ipVersion, u8]

lemma value_bytes (n : ℕ) : (bytes i n).value m = (m.drop i ++ List.replicate n 0).take n := by
  induction n generalizing i with
  | zero => rfl
  | succ n ih =>
    rw [bytes]
    simp only [value_bind, value_read, value_pure, ih]
    have hzeros : ∀ l : Bytes, (l ++ List.replicate (n + 1) 0).take n =
        (l ++ List.replicate n 0).take n := by
      intro l
      simp only [List.take_append, List.take_replicate]
      congr 2
      omega
    by_cases hi : i < m.length
    · rw [List.drop_eq_getElem_cons hi, List.cons_append, List.take_succ_cons, hzeros,
        List.getD_eq_getElem?_getD, List.getElem?_eq_getElem hi, Option.getD_some]
    · rw [List.drop_eq_nil_of_le (not_lt.mp hi), List.drop_eq_nil_of_le (by omega),
        List.getD_eq_getElem?_getD, List.getElem?_eq_none (not_lt.mp hi)]
      rfl

lemma value_ethertype (base : ℕ) :
    (ethertype base i).value m = PcapSipDump.be16 m (base + 12 + 2 * i) := by
  rw [ethertype, value_be16]

@[simp] lemma value_unfamiliar (verbosity : ℤ) (base : ℕ) :
    (unfamiliar verbosity base).value m = none := by
  rw [unfamiliar, value_ite]
  split <;> simp

lemma value_pppoeGetHeaderIp (verbosity : ℤ) (base : ℕ) :
    (pppoeGetHeaderIp verbosity base).value m = PcapSipDump.pppoeGetHeaderIp m base := by
  simp only [pppoeGetHeaderIp, PcapSipDump.pppoeGetHeaderIp, value_bind, value_ethertype, value_ite,
    value_pure, value_unfamiliar]
  split <;> simp

lemma value_doubleTagged (verbosity : ℤ) : (doubleTagged verbosity).value m =
    if PcapSipDump.be16 m 16 = 0x8100 ∧ PcapSipDump.be16 m 20 = 0x0800 then some 22 else none := by
  simp only [doubleTagged, value_bind, value_ethertype, value_ite, value_pure, value_unfamiliar,
    ite_and]

lemma value_ethernetGetHeaderIp (verbosity : ℤ) :
    (ethernetGetHeaderIp verbosity).value m = PcapSipDump.ethernetGetHeaderIp m := by
  simp only [ethernetGetHeaderIp, value_bind, value_ethertype, value_ite, value_pure,
    value_unfamiliar, value_pppoeGetHeaderIp, value_doubleTagged]
  rfl

lemma value_skipTunnelIpHeader :
    (skipTunnelIpHeader ip).value m = PcapSipDump.skipTunnelIpHeader m ip := by
  simp only [skipTunnelIpHeader, value_bind, value_andM, value_versionIs, value_byteIs, value_ite,
    value_pure, PcapSipDump.skipTunnelIpHeader, nexthdr, Bool.and_eq_true, decide_eq_true_eq]
  rfl

/-- `header_ip` before `skip_tunnel_ip_header`. -/
lemma value_linkHeader : ((linkHeader o).value m).map (PcapSipDump.skipTunnelIpHeader m) =
    headerIp o.dlt m := by
  rw [linkHeader, value_ite, value_ethernetGetHeaderIp, value_pure]
  rfl

@[simp] lemma value_isFragment6 : (isFragment6 ip).value m = PcapSipDump.isFragment6 m ip := by
  simp only [isFragment6, value_andM, value_versionIs, value_byteIs, PcapSipDump.isFragment6,
    nexthdr]
  rfl

lemma value_isLaterFragment4 :
    (isLaterFragment4 ip).value m = PcapSipDump.isLaterFragment4 m ip := by
  simp only [isLaterFragment4, value_andM, value_versionIs, value_bind, value_be16, value_pure,
    PcapSipDump.isLaterFragment4, fragOff]
  rfl

lemma value_isLaterFragment6 :
    (isLaterFragment6 ip).value m = PcapSipDump.isLaterFragment6 m ip := by
  simp only [isLaterFragment6, value_andM, value_isFragment6, value_byteIs, value_bind, value_be16,
    value_pure, PcapSipDump.isLaterFragment6, Bool.and_assoc]

@[simp] lemma value_hashAddr : (hashAddr i).value m = PcapSipDump.hashAddr m i := by
  simp only [hashAddr, value_bind, value_le32, value_pure, PcapSipDump.hashAddr]

@[simp] lemma value_hsaddr : (hsaddr ip).value m = PcapSipDump.hsaddr m ip := by
  simp only [hsaddr, value_bind, value_versionIs, value_ite, value_le32, value_hashAddr,
    PcapSipDump.hsaddr, decide_eq_true_eq]

@[simp] lemma value_hdaddr : (hdaddr ip).value m = PcapSipDump.hdaddr m ip := by
  simp only [hdaddr, value_bind, value_versionIs, value_ite, value_le32, value_hashAddr,
    PcapSipDump.hdaddr, decide_eq_true_eq]

lemma value_addrAddrId4 : (addrAddrId4 ip).value m = PcapSipDump.addrAddrId4 m ip := by
  simp only [addrAddrId4, value_bind, value_le32, value_le16, value_pure, PcapSipDump.addrAddrId4]

/-- The identification is the low half of the 32-bit field. -/
lemma toUInt16_le32 : (PcapSipDump.le32 m i).toUInt16 = PcapSipDump.le16 m i := by
  have hhigh : (PcapSipDump.le16 m (i + 2)).toUInt32.toUInt16 * (65536 : UInt32).toUInt16 = 0 := by
    show _ * (0 : UInt16) = 0
    exact UInt16.mul_zero
  rw [PcapSipDump.le32, UInt32.toUInt16_add, UInt32.toUInt16_mul, hhigh, UInt16.add_zero,
    UInt16.toUInt16_toUInt32]

lemma value_addrAddrId6 : (addrAddrId6 ip).value m = PcapSipDump.addrAddrId6 m ip := by
  simp only [addrAddrId6, value_bind, value_hsaddr, value_hdaddr, value_le32, value_pure,
    PcapSipDump.addrAddrId6, toUInt16_le32]

lemma value_isUdp : (isUdp ip).value m = PcapSipDump.isUdp m ip := by
  simp only [isUdp, value_orM, value_andM, value_versionIs, value_byteIs, value_isFragment6,
    PcapSipDump.isUdp, protocol, nexthdr, Bool.or_assoc]
  rfl

lemma value_isTcp (dlt : Dlt) (caplen : ℕ) :
    (isTcp dlt caplen ip).value m = PcapSipDump.isTcp dlt caplen m ip := by
  simp only [isTcp, value_orM, value_andM, value_versionIs, value_byteIs, value_pure,
    PcapSipDump.isTcp, protocol, Bool.and_assoc]
  rfl

lemma value_isAdmitted (useTcp : Bool) (dlt : Dlt) (caplen : ℕ) :
    (isAdmitted useTcp dlt caplen ip).value m = PcapSipDump.isAdmitted useTcp dlt caplen m ip := by
  simp only [isAdmitted, value_orM, value_andM, value_versionIs, value_byteIs, value_pure,
    value_isTcp, PcapSipDump.isAdmitted, PcapSipDump.isFragment6, Bool.or_assoc, Bool.and_assoc]
  rw [Bool.and_left_comm (decide (nexthdr m ip = ipprotoFragment))]
  rfl

lemma value_headerUdp : (headerUdp ip).value m = PcapSipDump.headerUdp m ip := by
  simp only [headerUdp, value_bind, value_isFragment6, value_versionIs, value_pure,
    PcapSipDump.headerUdp, decide_eq_true_eq]

lemma value_dataPos :
    (dataPos ip (PcapSipDump.headerUdp m ip)).value m = PcapSipDump.dataPos m ip := by
  simp only [dataPos, value_bind, value_isUdp, value_ite, value_read, value_pure,
    PcapSipDump.dataPos, u8]

lemma value_getSsrc (data : ℕ) (isRtcp : Bool) :
    (getSsrc data isRtcp).value m = PcapSipDump.getSsrc m data isRtcp := by
  rw [getSsrc, value_be32, PcapSipDump.getSsrc]

lemma value_isRtcp : (isRtcp o (PcapSipDump.headerUdp m ip)).value m =
    (o.optRtpsave = .rtpRtcp && sourcePort m ip &&& 1 ≠ 0 && destPort m ip &&& 1 ≠ 0) := by
  simp only [isRtcp, isOdd, value_andM, value_pure, value_bind, value_be16, sourcePort, destPort,
    Bool.and_assoc]
  rfl

/-- The lookups are made with the pairs and the SSRC of the packet. -/
lemma value_rtpLookup (w : World) :
    (rtpLookup o w.ct ip (PcapSipDump.headerUdp m ip) (PcapSipDump.dataPos m ip)).value m =
      (PcapSipDump.rtpLookup o m ip w).1 := by
  have hssrc : (getSsrc (PcapSipDump.dataPos m ip)
      ((isRtcp o (PcapSipDump.headerUdp m ip)).value m)).value m = packetSsrc o m ip := by
    rw [value_getSsrc, value_isRtcp, packetSsrc]
  rw [rtpLookup]
  by_cases hsave : o.optRtpsave = .none
  · rw [if_pos hsave, PcapSipDump.rtpLookup, if_pos hsave]
    rfl
  · rw [if_neg hsave, rtpLookup_fst hsave]
    simp only [value_bind, value_hdaddr, value_be16, hssrc, dstPair, srcPair, destPort, sourcePort]
    rcases w.ct.findFlow (PcapSipDump.hdaddr m ip) (PcapSipDump.be16 m
      (PcapSipDump.headerUdp m ip + 2) &&& o.optRtpsave.portMask) (packetSsrc o m ip) with _ | f
    · simp only [value_bind, value_hsaddr, value_be16, hssrc]
      rfl
    · rfl

lemma value_sipMethod (data : ℕ) :
    (sipMethod data).value m = PcapSipDump.sipMethod (m.drop data) := by
  have hmethod : PcapSipDump.getMethod ((bytes data 9).value m) =
      PcapSipDump.getMethod (m.drop data) := by
    have hlen : ((m.drop data ++ List.replicate 9 0).take 9).length = 9 := by simp
    rw [value_bytes, PcapSipDump.getMethod, PcapSipDump.getMethod, List.take_left' hlen]
  have hresponse : (bytes data 8).value m = ascii "SIP/2.0 " ↔ isSipResponse (m.drop data) := by
    rw [value_bytes, isSipResponse, decide_eq_true_eq]
    generalize m.drop data = l
    by_cases hlen : 8 ≤ l.length
    · rw [List.take_append_of_le_length hlen]
    · -- a shorter payload ends in zeros
      refine iff_of_false (fun h => ?_) fun h => ?_
      · have hlast := congrArg (fun s : Bytes => s[7]?) h
        simp only [List.getElem?_take, List.getElem?_append_right (show l.length ≤ 7 by omega),
          List.getElem?_replicate] at hlast
        rw [if_pos (by omega), if_pos (by omega)] at hlast
        exact absurd hlast (by decide +kernel)
      · have hshort := congrArg List.length h
        rw [List.length_take] at hshort
        have height : (ascii "SIP/2.0 ").length = 8 := by decide +kernel
        omega
  simp only [sipMethod, PcapSipDump.sipMethod, value_bind, hmethod]
  rcases PcapSipDump.getMethod (m.drop data) with _ | method
  · simp only [value_bind, value_pure, hresponse]
    rfl
  · rfl

/-- What the dissection finds out about a packet of this branch. -/
def Kind.ofBranch : Branch → Kind
  | .skip => .skip
  | .fragment aai _ => .fragment aai
  | .rtp ip f => .rtp ip f
  | .sip ip msg => .sip ip msg.method

lemma value_fragment (ct : Calltable) (key : Reads AddrAddrId) (more : ℕ) :
    (fragment ct key more).value m = .fragment (key.value m) := by
  rw [fragment, value_bind, value_ite, value_bind]
  exact ite_self _

lemma value_admitted (w : World) (p : Packet) : (admitted o w.ct ip).value p.mem =
    Kind.ofBranch (admittedBranch o p ip w) := by
  simp only [admitted, admittedBranch, value_bind, value_headerUdp, value_dataPos,
    value_rtpLookup]
  rcases hfound : (PcapSipDump.rtpLookup o p.mem ip w).1 with _ | f
  · simp only [value_bind, value_sipMethod]
    rcases PcapSipDump.sipMethod (p.mem.drop (PcapSipDump.dataPos p.mem ip)) with _ | method
    · simp only [value_ite, value_bind]
      exact ite_self _
    · rfl
  · simp only [value_ite, value_bind]
    exact ite_self _

/-- **The dissection of a packet** comes to the branch that the capture loop takes. -/
theorem value_dispatch (w : World) (p : Packet) :
    (dispatch o w.ct p.caplen).value p.mem = Kind.ofBranch (branch o p w) := by
  have hlink := value_linkHeader p.mem o
  rw [dispatch, value_bind]
  rcases hl : (linkHeader o).value p.mem with _ | link
  · rw [hl] at hlink
    have hip : headerIp o.dlt p.mem = none := hlink.symm
    simp only [branch, laterFragment, hip]
    rfl
  · rw [hl] at hlink
    have hip : headerIp o.dlt p.mem = some (PcapSipDump.skipTunnelIpHeader p.mem link) :=
      hlink.symm
    simp only [branch, laterFragment, hip, dispatchIp, value_bind, value_skipTunnelIpHeader,
      value_isLaterFragment4, value_isLaterFragment6, value_isAdmitted, value_ite, value_pure,
      value_fragment, value_addrAddrId4, value_addrAddrId6, value_admitted]
    generalize PcapSipDump.skipTunnelIpHeader p.mem link = ip
    by_cases h4 : PcapSipDump.isLaterFragment4 p.mem ip
    · simp only [if_pos h4]
      rfl
    by_cases h6 : PcapSipDump.isLaterFragment6 p.mem ip
    · simp only [if_neg h4, if_pos h6]
      rfl
    simp only [if_neg h4, if_neg h6]
    by_cases hadm : PcapSipDump.isAdmitted o.useTcp o.dlt p.caplen p.mem ip
    · simp only [if_pos hadm]
    · simp only [if_neg hadm]
      rfl

/-- The reads for the fragment map come to the key of the packet. -/
lemma value_recordKey : (recordKey ip).value m = PcapSipDump.recordKey m ip := by
  simp only [recordKey, value_bind, value_andM, value_versionIs, value_be16, value_ite, value_pure,
    value_isFragment6, value_addrAddrId4, value_addrAddrId6, PcapSipDump.recordKey,
    isFirstFragment4, fragOff]
  rfl

end Values

end Dissector

end PcapSipDump
