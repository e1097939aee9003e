import PcapSipDump.Capture.Branch
import PcapSipDump.Capture.PayloadLength

/-!
# The position of the payload

The UDP branch takes the length of the IP header from the version alone: 20 bytes for IPv4, 40 for
IPv6, and 8 more for a fragment header.  The headers are described here by their own fields, with
the length that they really have.
-/

namespace PcapSipDump

open Lib.CString

/-! ### IP headers -/

/-- The header length of an IPv4 packet, in words of four bytes. -/
def ihl (m : Bytes) (ip : ℕ) : ℕ := (u8 m ip &&& 0xf).toNat

/-- An IPv4 packet at `ip` that carries the protocol `proto` and is no fragment. -/
structure IsIpv4 (m : Bytes) (ip : ℕ) (proto : UInt8) : Prop where
  version : ipVersion m ip = 4
  ihl_ge : 5 ≤ ihl m ip
  unfragmented : fragOff m ip &&& 0x3fff = 0
  protocol_eq : protocol m ip = proto

/-- An IPv6 packet at `ip` whose first header behind the fixed one is `proto`. -/
structure IsIpv6 (m : Bytes) (ip : ℕ) (proto : UInt8) : Prop where
  version : ipVersion m ip = 6
  nexthdr_eq : nexthdr m ip = proto

/-- The fragment header of a first fragment that carries the protocol `proto`. -/
structure IsFirstFragment6 (m : Bytes) (ip : ℕ) (proto : UInt8) : Prop where
  header : IsIpv6 m ip ipprotoFragment
  nexthdr_eq : u8 m (ip + 40) = proto
  offset_eq : be16 m (ip + 42) &&& 0xfff8 = 0

/-- What stands at the position `start` carries the protocol `proto`, in the packet at `ip` with a
header of `len` bytes.  The position `ip` is another one for IPv4 in IPv6. -/
inductive CarriesAt (m : Bytes) (start : ℕ) (proto : UInt8) : ℕ → ℕ → Prop
  | ipv4 : IsIpv4 m start proto → CarriesAt m start proto start (4 * ihl m start)
  | ipv6 : IsIpv6 m start proto → CarriesAt m start proto start 40
  | fragment6 : IsFirstFragment6 m start proto → CarriesAt m start proto start 48
  | tunnel : IsIpv6 m start 4 → IsIpv4 m (start + 40) proto →
      CarriesAt m start proto (start + 40) (4 * ihl m (start + 40))

/-- The transport protocols. -/
inductive Transport where
  | udp
  | tcp
deriving DecidableEq

namespace Transport

/-- The number of a protocol. -/
def proto : Transport → UInt8
  | udp => ipprotoUdp
  | tcp => ipprotoTcp

/-- The size of a header without options. -/
def minBytes : Transport → ℕ
  | udp => 8
  | tcp => 20

/-- `doff` of a TCP header at `pos`. -/
def doff (m : Bytes) (pos : ℕ) : ℕ := (u8 m (pos + 12) >>> 4).toNat

/-- The length of a header at `pos`. -/
def headerBytes (m : Bytes) (pos : ℕ) : Transport → ℕ
  | udp => 8
  | tcp => 4 * doff m pos

end Transport

/-- Where the first IP header of a packet is. -/
def firstIp (dlt : Dlt) (m : Bytes) : Option ℕ :=
  if dlt = .en10mb then ethernetGetHeaderIp m else some dlt.offsetToIp

/-- The packet enters the branch for UDP with its IP header at `ip`. -/
structure EntersUdpBranch (o : Options) (p : Packet) (ip : ℕ) : Prop where
  header : headerIp o.dlt p.mem = some ip
  not_later : laterFragment o p = none
  takes : isAdmitted o.useTcp o.dlt p.caplen p.mem ip

lemma EntersUdpBranch.dispatch_eq {o : Options} {p : Packet} {ip : ℕ}
    (h : EntersUdpBranch o p ip) (host : Host) (s : State) :
    dispatch o host p s = admitted o host p ip s := by
  rw [PcapSipDump.dispatch_eq, branch_of_admitted h.not_later h.header h.takes, admitted_eq]

/-- The packets for which the position comes out right: UDP behind an IPv4 header without options
or behind any IPv6 header, TCP behind an IPv4 header without options or with options whose bytes
happen to make up for their length, and TCP behind an IPv6 header where the byte that is read as
the protocol, the second one of the source address, happens to be 6. -/
def IsPlaced (m : Bytes) (ip : ℕ) (transport : Transport) : Prop :=
  if ipVersion m ip = 4 then
    match transport with
    | .udp => ihl m ip = 5
    | .tcp => 5 + Transport.doff m (ip + 20) = ihl m ip + Transport.doff m (ip + 4 * ihl m ip)
  else transport = .tcp → u8 m (ip + 9) = 6

/-! ### Where the header is found -/

section Header

variable {o : Options} {p : Packet} {m : Bytes} {start ip len : ℕ} {transport : Transport}

lemma offsetToIp_le {dlt : Dlt} (h : firstIp dlt m = some start) : dlt.offsetToIp ≤ start := by
  cases dlt with
  | en10mb =>
    rw [ethernetGetHeaderIp_eq h]
    exact Nat.le_add_right _ _
  | linuxSll => exact (Option.some.inj h).le
  | raw => exact (Option.some.inj h).le

lemma start_le (h : CarriesAt m start transport.proto ip len) : start ≤ ip := by
  cases h with
  | ipv4 _ => exact le_refl _
  | ipv6 _ => exact le_refl _
  | fragment6 _ => exact le_refl _
  | tunnel _ _ => exact Nat.le_add_right _ _

/-- The tunnel header is skipped, and no other. -/
lemma skipTunnelIpHeader_of_carries (h : CarriesAt m start transport.proto ip len) :
    skipTunnelIpHeader m start = ip := by
  have hproto : transport.proto ≠ 4 := by cases transport <;> decide
  rw [skipTunnelIpHeader]
  cases h with
  | ipv4 h4 => exact if_neg fun h => ipVersion_ne_six h4.version h.1
  | ipv6 h6 => exact if_neg fun h => hproto (h6.nexthdr_eq ▸ h.2)
  | fragment6 hf =>
    refine if_neg fun h => ?_
    rw [hf.header.nexthdr_eq] at h
    exact absurd h.2 (by decide)
  | tunnel h6 _ => exact if_pos ⟨h6.version, h6.nexthdr_eq⟩

lemma headerIp_of_carries {dlt : Dlt} (hstart : firstIp dlt m = some start)
    (h : CarriesAt m start transport.proto ip len) : headerIp dlt m = some ip := by
  show (firstIp dlt m).map (skipTunnelIpHeader m) = some ip
  rw [hstart, Option.map_some, skipTunnelIpHeader_of_carries h]

/-- What is at `ip` itself. -/
lemma header_cases (h : CarriesAt m start transport.proto ip len) :
    (IsIpv4 m ip transport.proto ∧ len = 4 * ihl m ip) ∨
      (IsIpv6 m ip transport.proto ∧ len = 40) ∨
      IsFirstFragment6 m ip transport.proto ∧ len = 48 := by
  cases h with
  | ipv4 h4 => exact Or.inl ⟨h4, rfl⟩
  | ipv6 h6 => exact Or.inr (Or.inl ⟨h6, rfl⟩)
  | fragment6 hf => exact Or.inr (Or.inr ⟨hf, rfl⟩)
  | tunnel _ h4 => exact Or.inl ⟨h4, rfl⟩

/-- The packet is not taken for a later fragment. -/
lemma laterFragment_of_carries (hip : headerIp o.dlt p.mem = some ip)
    (h : CarriesAt p.mem start transport.proto ip len) : laterFragment o p = none := by
  rw [laterFragment_eq_none_iff hip]
  rcases header_cases h with ⟨h4, -⟩ | ⟨h6, -⟩ | ⟨hf, -⟩
  · have hoff : fragOff p.mem ip &&& 0x1fff = 0 := by
      have hmask : (0x3fff : UInt16) &&& 0x1fff = 0x1fff := by decide
      rw [← hmask, ← UInt16.and_assoc, h4.unfragmented, UInt16.zero_and]
    refine ⟨?_, ?_⟩
    · rw [isLaterFragment4, hoff]
      simp
    · rw [isLaterFragment6, isFragment6_eq_false h4.version, Bool.false_and, Bool.false_and]
  · refine ⟨?_, ?_⟩
    · rw [isLaterFragment4, decide_eq_false (ipVersion_ne_four h6.version), Bool.false_and]
    · have hne : transport.proto ≠ ipprotoFragment := by cases transport <;> decide
      rw [isLaterFragment6, isFragment6, h6.nexthdr_eq, decide_eq_false hne, Bool.and_false,
        Bool.false_and, Bool.false_and]
  · refine ⟨?_, ?_⟩
    · rw [isLaterFragment4, decide_eq_false (ipVersion_ne_four hf.header.version),
        Bool.false_and]
    · rw [isLaterFragment6, hf.offset_eq]
      simp

/-! ### Where the payload is expected -/

/-- Where the transport header is taken to be. -/
lemma headerUdp_of_carries (h : CarriesAt m start transport.proto ip len) :
    headerUdp m ip = if ipVersion m ip = 4 then ip + 20 else ip + len := by
  rw [headerUdp]
  rcases header_cases h with ⟨h4, -⟩ | ⟨h6, rfl⟩ | ⟨hf, rfl⟩
  · rw [if_pos h4.version, if_pos h4.version, isFragment6_eq_false h4.version]
    rfl
  · have hne : transport.proto ≠ ipprotoFragment := by cases transport <;> decide
    have hfrag : ¬isFragment6 m ip := fun hf => hne (h6.nexthdr_eq ▸ (isFragment6_iff.mp hf).2)
    have hv := ipVersion_ne_four h6.version
    rw [if_neg hv, if_neg hv, if_neg hfrag, Nat.add_zero]
  · have hfrag : isFragment6 m ip :=
      isFragment6_iff.mpr ⟨hf.header.version, hf.header.nexthdr_eq⟩
    have hv := ipVersion_ne_four hf.header.version
    rw [if_neg hv, if_neg hv, if_pos hfrag]

/-- The tests that place the payload tell the two protocols apart. -/
lemma isUdp_iff_of_carries (h : CarriesAt m start transport.proto ip len) :
    isUdp m ip ↔ transport = .udp := by
  have hproto : transport.proto = ipprotoUdp ↔ transport = .udp := by cases transport <;> decide
  have hfrag : transport.proto ≠ ipprotoFragment := by cases transport <;> decide
  rw [← hproto]
  simp only [isUdp, isFragment6, Bool.or_eq_true, Bool.and_eq_true, decide_eq_true_eq]
  rcases header_cases h with ⟨h4, -⟩ | ⟨h6, -⟩ | ⟨hf, -⟩
  · simp [h4.version, h4.protocol_eq]
  · simp [h6.version, h6.nexthdr_eq, hfrag]
  · simp [hf.header.version, hf.header.nexthdr_eq, hf.nexthdr_eq, ipprotoFragment, ipprotoUdp]

/-- A UDP packet with its header is admitted. -/
lemma isAdmitted_of_isUdp {dlt : Dlt} {useTcp : Bool} {caplen : ℕ} (hudp : isUdp m ip)
    (hfits : dlt.offsetToIp + (if ipVersion m ip = 4 then 20 else 40) + 8 ≤ caplen) :
    isAdmitted useTcp dlt caplen m ip := by
  simp only [isUdp, isFragment6, Bool.or_eq_true, Bool.and_eq_true, decide_eq_true_eq] at hudp
  simp only [isAdmitted, isFragment6, Bool.or_eq_true, Bool.and_eq_true, decide_eq_true_eq]
  rcases hudp with (⟨h4, hproto⟩ | ⟨h6, hproto⟩) | ⟨⟨h6, hfrag⟩, hproto⟩
  · rw [if_pos h4] at hfits
    exact Or.inl (Or.inl (Or.inl ⟨⟨h4, hfits⟩, hproto⟩))
  · rw [if_neg (ipVersion_ne_four h6)] at hfits
    exact Or.inl (Or.inl (Or.inr ⟨⟨h6, hfits⟩, hproto⟩))
  · rw [if_neg (ipVersion_ne_four h6)] at hfits
    exact Or.inl (Or.inr ⟨⟨⟨h6, hfrag⟩, hfits⟩, hproto⟩)

/-- Over IPv6 only the byte that is read as the protocol can let in what is not UDP. -/
lemma isAdmitted_iff_of_not_isUdp {dlt : Dlt} {caplen : ℕ} (h6 : ipVersion m ip = 6)
    (hudp : ¬isUdp m ip) (hfits : dlt.offsetToIp + 40 + 20 ≤ caplen) :
    isAdmitted true dlt caplen m ip ↔ u8 m (ip + 9) = 6 := by
  simp only [isUdp, Bool.or_eq_true, Bool.and_eq_true, decide_eq_true_eq, not_or, h6,
    true_and] at hudp
  obtain ⟨⟨-, hnext⟩, hfrag⟩ := hudp
  have h4 := ipVersion_ne_four h6
  have hproto : protocol m ip = ipprotoTcp ↔ u8 m (ip + 9) = 6 := Iff.rfl
  rw [← hproto]
  simp only [isAdmitted, isTcp, Bool.or_eq_true, Bool.and_eq_true, decide_eq_true_eq, true_and]
  constructor
  · rintro (((⟨⟨hv, -⟩, -⟩ | ⟨-, hudp⟩) | ⟨⟨hf, -⟩, hudp⟩) | ⟨⟨hv, -⟩, -⟩ | ⟨-, htcp⟩)
    · exact absurd hv h4
    · exact absurd hudp hnext
    · exact absurd ⟨hf, hudp⟩ hfrag
    · exact absurd hv h4
    · exact htcp
  · exact fun htcp => Or.inr (Or.inr ⟨⟨h6, hfits⟩, htcp⟩)

/-- A packet with its transport header is admitted, but for TCP over IPv6. -/
lemma isAdmitted_iff_of_carries {dlt : Dlt} {useTcp : Bool} {caplen : ℕ}
    (hstart : firstIp dlt m = some start) (h : CarriesAt m start transport.proto ip len)
    (htcp : transport = .tcp → useTcp) (hcaptured : ip + len + transport.minBytes ≤ caplen) :
    isAdmitted useTcp dlt caplen m ip ↔
      ipVersion m ip = 4 ∨ (transport = .tcp → u8 m (ip + 9) = 6) := by
  have hle : dlt.offsetToIp ≤ ip := (offsetToIp_le hstart).trans (start_le h)
  have hlen : (if ipVersion m ip = 4 then 20 else 40) ≤ len := by
    rcases header_cases h with ⟨h4, rfl⟩ | ⟨h6, rfl⟩ | ⟨hf, rfl⟩
    · have hihl := h4.ihl_ge
      rw [if_pos h4.version]
      omega
    · rw [if_neg (ipVersion_ne_four h6.version)]
    · rw [if_neg (ipVersion_ne_four hf.header.version)]
      decide
  have hudp := isUdp_iff_of_carries h
  cases transport with
  | udp =>
    rw [Transport.minBytes] at hcaptured
    refine iff_of_true (isAdmitted_of_isUdp (hudp.mpr rfl) ?_)
      (Or.inr fun h => absurd h (by decide))
    omega
  | tcp =>
    rw [Transport.minBytes] at hcaptured
    rw [htcp rfl]
    by_cases hv : ipVersion m ip = 4
    · rw [if_pos hv] at hlen
      have hproto : protocol m ip = ipprotoTcp := by
        rcases header_cases h with ⟨h4, -⟩ | ⟨h6, -⟩ | ⟨hf, -⟩
        · exact h4.protocol_eq
        · exact absurd hv (ipVersion_ne_four h6.version)
        · exact absurd hv (ipVersion_ne_four hf.header.version)
      have hfits : dlt.offsetToIp + 20 + 20 ≤ caplen := by omega
      refine iff_of_true ?_ (Or.inl hv)
      simp [isAdmitted, isTcp, hv, hproto, hfits]
    · rw [if_neg hv] at hlen
      have h6 : ipVersion m ip = 6 := by
        rcases header_cases h with ⟨h4, -⟩ | ⟨h6, -⟩ | ⟨hf, -⟩
        · exact absurd h4.version hv
        · exact h6.version
        · exact hf.header.version
      have hnot : ¬isUdp m ip := fun h => absurd (hudp.mp h) (by decide)
      rw [isAdmitted_iff_of_not_isUdp h6 hnot (by omega)]
      simp [hv]

/-- The payload is behind the transport header, at the place where this is taken to be. -/
lemma dataPos_of_carries (h : CarriesAt m start transport.proto ip len) :
    dataPos m ip = (if ipVersion m ip = 4 then ip + 20 else ip + len) +
      transport.headerBytes m (if ipVersion m ip = 4 then ip + 20 else ip + len) := by
  rw [dataPos, headerUdp_of_carries h]
  cases transport with
  | udp => rw [if_pos ((isUdp_iff_of_carries h).mpr rfl), Transport.headerBytes]
  | tcp =>
    rw [if_neg fun hudp => absurd ((isUdp_iff_of_carries h).mp hudp) (by decide),
      Transport.headerBytes, Transport.doff, Nat.mul_comm]

end Header

/-- **The payload pointer.**  For a packet of UDP, or of TCP in a build for it, whose headers are
captured, the packet enters the branch and the payload is where the headers say if and only if the
packet is one of those for which the position comes out right. -/
theorem payload_pointer_iff (o : Options) {p : Packet} {start ip len : ℕ} {transport : Transport}
    (hstart : firstIp o.dlt p.mem = some start)
    (hcarries : CarriesAt p.mem start transport.proto ip len)
    (htcp : transport = .tcp → o.useTcp)
    (hcaptured : ip + len + transport.minBytes ≤ p.caplen) :
    (EntersUdpBranch o p ip ∧
        dataPos p.mem ip = ip + len + transport.headerBytes p.mem (ip + len)) ↔
      IsPlaced p.mem ip transport := by
  have hip := headerIp_of_carries hstart hcarries
  have henters : EntersUdpBranch o p ip ↔
      ipVersion p.mem ip = 4 ∨ (transport = .tcp → u8 p.mem (ip + 9) = 6) := by
    rw [← isAdmitted_iff_of_carries hstart hcarries htcp hcaptured]
    exact ⟨fun h => h.takes, fun h => ⟨hip, laterFragment_of_carries hip hcarries, h⟩⟩
  rw [henters, dataPos_of_carries hcarries]
  unfold IsPlaced
  by_cases hv : ipVersion p.mem ip = 4
  · obtain ⟨h4, rfl⟩ : IsIpv4 p.mem ip transport.proto ∧ len = 4 * ihl p.mem ip := by
      rcases header_cases hcarries with h4 | ⟨h6, -⟩ | ⟨hf, -⟩
      · exact h4
      · exact absurd hv (ipVersion_ne_four h6.version)
      · exact absurd hv (ipVersion_ne_four hf.header.version)
    simp only [hv, if_true, true_or, true_and]
    cases transport with
    | udp =>
      show ip + 20 + 8 = ip + 4 * ihl p.mem ip + 8 ↔ ihl p.mem ip = 5
      omega
    | tcp =>
      show ip + 20 + 4 * Transport.doff p.mem (ip + 20) =
        ip + 4 * ihl p.mem ip + 4 * Transport.doff p.mem (ip + 4 * ihl p.mem ip) ↔ _
      omega
  · simp only [hv, if_false, false_or, and_true]

/-- The INVITE of a small capture, of 20 bytes of header and 8 of UDP. -/
theorem payload_pointer_invite :
    EntersUdpBranch Options.raw (Packet.captured 0 (invite "1")) 0 ∧
      dataPos (Packet.captured 0 (invite "1")).mem 0 =
        0 + 4 * ihl (Packet.captured 0 (invite "1")).mem 0 +
          Transport.udp.headerBytes (Packet.captured 0 (invite "1")).mem
            (0 + 4 * ihl (Packet.captured 0 (invite "1")).mem 0) := by
  have hplaced : IsPlaced (Packet.captured 0 (invite "1")).mem 0 .udp := by
    rw [IsPlaced, if_pos (by decide +kernel)]
    decide +kernel
  exact (payload_pointer_iff Options.raw (show firstIp .raw _ = some 0 from rfl)
    (.ipv4 ⟨by decide +kernel, by decide +kernel, by decide +kernel, by decide +kernel⟩)
    (by decide) (by decide +kernel)).mpr hplaced

/-- A UDP packet with one word of options, the router alert. -/
def alertPacket : Packet :=
  Packet.captured 0 ([0x46, 0, 0, 40, 0, 1, 0, 0, 64, 17, 0, 0, 10, 0, 0, 1, 10, 0, 0, 2,
    0x94, 4, 0, 0] ++ field16 5060 ++ field16 5060 ++ [0, 16, 0, 0] ++ ascii "INVITE s")

/-- Its payload is taken to start inside the UDP header. -/
theorem payload_pointer_false :
    ¬∀ (o : Options) (p : Packet) (start ip len : ℕ), firstIp o.dlt p.mem = some start →
      CarriesAt p.mem start ipprotoUdp ip len → ip + len + 8 ≤ p.caplen →
      EntersUdpBranch o p ip ∧ dataPos p.mem ip = ip + len + 8 := by
  intro h
  have hpos := (h Options.raw alertPacket 0 0 24 (by rfl)
    (.ipv4 ⟨by decide +kernel, by decide +kernel, by decide +kernel, by decide +kernel⟩)
    (by decide +kernel)).2
  exact absurd hpos (by decide +kernel)

end PcapSipDump
