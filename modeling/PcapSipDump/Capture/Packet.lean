import PcapSipDump.CallTable.Basic

/-!
# Dissection of a captured packet

Where the capture loop finds the IP header, the ports, the addresses and the payload of a
packet.  A pointer into the packet is its distance from `pkt_data`, and memory is the list of
bytes from there on: the captured bytes, then what happens to lie behind them, then zeros.
The machine is little-endian, so a field that the source reads without `ntohs` has its first
byte as the lowest one.
-/

namespace PcapSipDump

open Lib.CString

/-- A captured packet: the capture time, the length on the wire, the captured bytes, and the
bytes that lie behind them in memory.  `caplen` is a 32-bit field. -/
structure Packet where
  ts : ℤ
  len : UInt32
  bytes : Bytes
  beyond : Bytes := []
  caplen_lt : bytes.length < 2 ^ 32 := by decide

namespace Packet

/-- `pkt_header->caplen` -/
def caplen (p : Packet) : ℕ := p.bytes.length

/-- The memory from `pkt_data` on. -/
def mem (p : Packet) : Bytes := p.bytes ++ p.beyond

/-- What `pcap_dump` writes for the packet. -/
def record (p : Packet) : Record := ⟨p.ts, p.len, p.bytes⟩

end Packet

/-! ### Reading memory -/

/-- The byte at an offset. -/
def u8 (m : Bytes) (i : ℕ) : UInt8 := m.getD i 0

/-- `ntohs` of the 16-bit word at an offset. -/
def be16 (m : Bytes) (i : ℕ) : UInt16 := (u8 m i).toUInt16 * 256 + (u8 m (i + 1)).toUInt16

/-- The 16-bit word at an offset. -/
def le16 (m : Bytes) (i : ℕ) : UInt16 := (u8 m i).toUInt16 + (u8 m (i + 1)).toUInt16 * 256

/-- `ntohl` of the 32-bit word at an offset. -/
def be32 (m : Bytes) (i : ℕ) : UInt32 :=
  (be16 m i).toUInt32 * 65536 + (be16 m (i + 2)).toUInt32

/-- The 32-bit word at an offset. -/
def le32 (m : Bytes) (i : ℕ) : UInt32 :=
  (le16 m i).toUInt32 + (le16 m (i + 2)).toUInt32 * 65536

/-! ### The IP header -/

/-- The link types that the program accepts. -/
inductive Dlt where
  | en10mb
  | linuxSll
  | raw
deriving DecidableEq

/-- `offset_to_ip` -/
def Dlt.offsetToIp : Dlt → ℕ
  | .en10mb => 14
  | .linuxSll => 16
  | .raw => 0

/-- The case `0x8864` of `ethernet_get_header_ip`, PPPoE, on a frame that starts at `base`. -/
def pppoeGetHeaderIp (m : Bytes) (base : ℕ) : Option ℕ :=
  let ethertype (i : ℕ) := be16 m (base + 12 + 2 * i)
  if ethertype 1 = 0x1100 ∧ (ethertype 4 = 0x0021 ∨ ethertype 4 = 0x0057) then
    some (base + 12 + 2 * 5)
  else none

/-- `ethernet_get_header_ip` on a frame at `pkt_data`. -/
def ethernetGetHeaderIp (m : Bytes) : Option ℕ :=
  let ethertype (i : ℕ) := be16 m (12 + 2 * i)
  let doubleTagged :=
    if ethertype 2 = 0x8100 ∧ ethertype 4 = 0x0800 then some (12 + 2 * 5) else none
  if ethertype 0 = 0x0800 ∨ ethertype 0 = 0x86dd then some (12 + 2 * 1)
  else if ethertype 0 = 0x8100 then
    if ethertype 2 = 0x0800 ∨ ethertype 2 = 0x86dd then some (12 + 2 * 3)
    -- the recursive call reads this 0x8864 as its first ethertype
    else if ethertype 2 = 0x8864 then pppoeGetHeaderIp m 4
    else doubleTagged
  else if ethertype 0 = 0x9100 ∨ ethertype 0 = 0x88a8 then doubleTagged
  else if ethertype 0 = 0x8864 then pppoeGetHeaderIp m 0
  else none

/-- `header_ip->version` -/
def ipVersion (m : Bytes) (ip : ℕ) : UInt8 := u8 m ip >>> 4

/-- `header_ip->protocol` -/
def protocol (m : Bytes) (ip : ℕ) : UInt8 := u8 m (ip + 9)

/-- `ntohs(header_ip->frag_off)` -/
def fragOff (m : Bytes) (ip : ℕ) : UInt16 := be16 m (ip + 6)

/-- `header_ipv6->nexthdr` -/
def nexthdr (m : Bytes) (ip : ℕ) : UInt8 := u8 m (ip + 6)

/-- `skip_tunnel_ip_header` -/
def skipTunnelIpHeader (m : Bytes) (ip : ℕ) : ℕ :=
  if ipVersion m ip = 6 ∧ nexthdr m ip = 4 then ip + 40 else ip

/-- The position of `header_ip` at the dispatch of the capture loop. -/
def headerIp (dlt : Dlt) (m : Bytes) : Option ℕ :=
  let ip := if dlt = .en10mb then ethernetGetHeaderIp m else some dlt.offsetToIp
  ip.map (skipTunnelIpHeader m)

/-- The four words of an IPv6 address, hashed to 32 bits. -/
def hashAddr (m : Bytes) (i : ℕ) : UInt32 :=
  le32 m i + le32 m (i + 4) * 19 + le32 m (i + 8) * 37 + le32 m (i + 12) * 109

/-- `hsaddr` -/
def hsaddr (m : Bytes) (ip : ℕ) : UInt32 :=
  if ipVersion m ip = 4 then le32 m (ip + 12) else hashAddr m (ip + 8)

/-- `hdaddr` -/
def hdaddr (m : Bytes) (ip : ℕ) : UInt32 :=
  if ipVersion m ip = 4 then le32 m (ip + 16) else hashAddr m (ip + 24)

/-! ### Fragments -/

/-- `IPPROTO_TCP` -/
def ipprotoTcp : UInt8 := 6

/-- `IPPROTO_UDP` -/
def ipprotoUdp : UInt8 := 17

/-- `IPPROTO_FRAGMENT` -/
def ipprotoFragment : UInt8 := 44

/-- The IPv4 packet is a fragment other than the first. -/
def isLaterFragment4 (m : Bytes) (ip : ℕ) : Bool :=
  ipVersion m ip = 4 && fragOff m ip &&& 0x1fff > 0

/-- `more_fragments == 0` -/
def isLastFragment4 (m : Bytes) (ip : ℕ) : Bool := fragOff m ip &&& 0x2000 = 0

/-- The IPv4 packet is a first fragment with more to come. -/
def isFirstFragment4 (m : Bytes) (ip : ℕ) : Bool :=
  ipVersion m ip = 4 && fragOff m ip = 0x2000

/-- The IPv6 packet has a fragment header. -/
def isFragment6 (m : Bytes) (ip : ℕ) : Bool :=
  ipVersion m ip = 6 && nexthdr m ip = ipprotoFragment

lemma isFragment6_iff {m : Bytes} {ip : ℕ} :
    isFragment6 m ip ↔ ipVersion m ip = 6 ∧ nexthdr m ip = ipprotoFragment := by
  rw [isFragment6, Bool.and_eq_true, decide_eq_true_eq, decide_eq_true_eq]

lemma ipVersion_of_isFragment6 {m : Bytes} {ip : ℕ} (h : isFragment6 m ip) :
    ipVersion m ip = 6 :=
  (isFragment6_iff.mp h).1

lemma ipVersion_ne_four {m : Bytes} {ip : ℕ} (h : ipVersion m ip = 6) : ipVersion m ip ≠ 4 := by
  rw [h]
  decide

lemma ipVersion_ne_six {m : Bytes} {ip : ℕ} (h : ipVersion m ip = 4) : ipVersion m ip ≠ 6 :=
  fun h6 => ipVersion_ne_four h6 h

/-- An IPv4 packet has no fragment header of IPv6. -/
lemma isFragment6_eq_false {m : Bytes} {ip : ℕ} (h : ipVersion m ip = 4) :
    isFragment6 m ip = false :=
  Bool.eq_false_of_not_eq_true fun hfrag => ipVersion_ne_six h (ipVersion_of_isFragment6 hfrag)

/-- The IPv6 packet is a UDP fragment other than the first. -/
def isLaterFragment6 (m : Bytes) (ip : ℕ) : Bool :=
  isFragment6 m ip && u8 m (ip + 40) = ipprotoUdp && be16 m (ip + 42) &&& 0xfff8 > 0

/-- The more-fragments flag of the fragment header is off. -/
def isLastFragment6 (m : Bytes) (ip : ℕ) : Bool := be16 m (ip + 42) &&& 1 = 0

/-- The fragment map's key for an IPv4 packet. -/
def addrAddrId4 (m : Bytes) (ip : ℕ) : AddrAddrId :=
  ⟨le32 m (ip + 12), le32 m (ip + 16), le16 m (ip + 4)⟩

/-- The fragment map's key for an IPv6 packet with a fragment header. -/
def addrAddrId6 (m : Bytes) (ip : ℕ) : AddrAddrId :=
  ⟨hsaddr m ip, hdaddr m ip, le16 m (ip + 44)⟩

/-! ### The transport header and the payload -/

/-- The packet is UDP by the tests that place the payload. -/
def isUdp (m : Bytes) (ip : ℕ) : Bool :=
  (ipVersion m ip = 4 && protocol m ip = ipprotoUdp) ||
    (ipVersion m ip = 6 && nexthdr m ip = ipprotoUdp) ||
    (isFragment6 m ip && u8 m (ip + 40) = ipprotoUdp)

/-- The packet is a TCP packet that a build with `USE_TCP` admits.  The IPv6 case reads the
protocol field of the IPv4 header. -/
def isTcp (dlt : Dlt) (caplen : ℕ) (m : Bytes) (ip : ℕ) : Bool :=
  (ipVersion m ip = 4 && dlt.offsetToIp + 20 + 20 ≤ caplen && protocol m ip = ipprotoTcp) ||
    (ipVersion m ip = 6 && dlt.offsetToIp + 40 + 20 ≤ caplen && protocol m ip = ipprotoTcp)

/-- The packet reaches the RTP and SIP part of the capture loop. -/
def isAdmitted (useTcp : Bool) (dlt : Dlt) (caplen : ℕ) (m : Bytes) (ip : ℕ) : Bool :=
  (ipVersion m ip = 4 && dlt.offsetToIp + 20 + 8 ≤ caplen && protocol m ip = ipprotoUdp) ||
    (ipVersion m ip = 6 && dlt.offsetToIp + 40 + 8 ≤ caplen && nexthdr m ip = ipprotoUdp) ||
    (isFragment6 m ip && dlt.offsetToIp + 40 + 8 ≤ caplen && u8 m (ip + 40) = ipprotoUdp) ||
    (useTcp && isTcp dlt caplen m ip)

/-- The position of `header_udp` and `tcph`. -/
def headerUdp (m : Bytes) (ip : ℕ) : ℕ :=
  ip + (if ipVersion m ip = 4 then 20 else 40) + (if isFragment6 m ip then 8 else 0)

/-- `htons(header_udp->source)` -/
def sourcePort (m : Bytes) (ip : ℕ) : UInt16 := be16 m (headerUdp m ip)

/-- `htons(header_udp->dest)` -/
def destPort (m : Bytes) (ip : ℕ) : UInt16 := be16 m (headerUdp m ip + 2)

/-- The position of `data`. -/
def dataPos (m : Bytes) (ip : ℕ) : ℕ :=
  if isUdp m ip then headerUdp m ip + 8
  -- `tcph->doff` is the high half of its byte
  else headerUdp m ip + (u8 m (headerUdp m ip + 12) >>> 4).toNat * 4

/-- `datalen`, an `unsigned long`. -/
def dataLen (p : Packet) (data : ℕ) : ℕ :=
  (UInt64.ofNat (min p.len.toNat p.caplen) - UInt64.ofNat data).toNat

/-- `get_ssrc` -/
def getSsrc (m : Bytes) (data : ℕ) (isRtcp : Bool) : UInt32 :=
  be32 m (data + if isRtcp then 4 else 8)

/-! ### Packets with given contents -/

/-- A packet as it is captured with the snapshot length that `main` sets. -/
def Packet.captured (ts : ℤ) (bytes : Bytes) : Packet where
  ts := ts
  len := UInt32.ofNat bytes.length
  bytes := bytes.take 9000
  caplen_lt := (List.length_take_le _ _).trans_lt (by decide)

/-- A 16-bit field in network byte order. -/
def field16 (n : UInt16) : Bytes := [(n / 256).toUInt8, n.toUInt8]

/-- An IPv4 packet with a UDP header; the fields that are not read are zero. -/
def ipv4Udp (id fragOff : UInt16) (saddr daddr : Bytes) (source dest : UInt16) (data : Bytes) :
    Bytes :=
  [0x45, 0, 0, 0] ++ field16 id ++ field16 fragOff ++ [0, ipprotoUdp, 0, 0] ++ saddr ++ daddr ++
    field16 source ++ field16 dest ++ [0, 0, 0, 0] ++ data

/-- An IPv6 packet with a fragment header, a part of a UDP datagram. -/
def ipv6Fragment (id : UInt32) (offsetAndMore : UInt16) (saddr daddr payload : Bytes) : Bytes :=
  [0x60, 0, 0, 0, 0, 0, ipprotoFragment, 0] ++ saddr ++ daddr ++ [ipprotoUdp, 0] ++
    field16 offsetAndMore ++ field16 (id / 65536).toUInt16 ++ field16 id.toUInt16 ++ payload

end PcapSipDump
