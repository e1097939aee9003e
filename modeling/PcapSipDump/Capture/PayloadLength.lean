import PcapSipDump.Capture.Packet

/-!
# The length of the payload

The tests of the UDP branch compare `caplen` with the size of an untagged frame, while the length
of the payload is what remains of the smaller of two lengths behind the real position of the
payload.  The subtraction does not wrap exactly when the tags, the tunnel header and the fragment
header of the frame fit into both lengths as well.
-/

namespace PcapSipDump

open Lib.CString

/-- The bytes that the accepted encapsulations put between the link header and the first IP
header: four for each VLAN tag, eight for PPPoE. -/
def tagBytes (dlt : Dlt) (m : Bytes) : ℕ :=
  if dlt = .en10mb then
    if be16 m 12 = 0x8100 then
      if be16 m 16 = 0x0800 ∨ be16 m 16 = 0x86dd then 4
      else if be16 m 16 = 0x8864 then 4 + 8
      else 4 + 4
    else if be16 m 12 = 0x9100 ∨ be16 m 12 = 0x88a8 then 4 + 4
    else if be16 m 12 = 0x8864 then 8
    else 0
  else 0

/-- The IPv6 header of a tunnel for IPv4. -/
def tunnelBytes (dlt : Dlt) (m : Bytes) : ℕ :=
  let outer := dlt.offsetToIp + tagBytes dlt m
  if ipVersion m outer = 6 ∧ nexthdr m outer = 4 then 40 else 0

/-- The fragment header of IPv6. -/
def fragmentBytes (m : Bytes) (ip : ℕ) : ℕ := if isFragment6 m ip then 8 else 0

/-- The size that the tests of the UDP branch compare with `caplen`. -/
def testedBytes (dlt : Dlt) (m : Bytes) (ip : ℕ) : ℕ :=
  dlt.offsetToIp + (if ipVersion m ip = 4 then 20 else 40) + 8

lemma ethernetGetHeaderIp_eq {m : Bytes} {ip : ℕ} (h : ethernetGetHeaderIp m = some ip) :
    ip = 14 + tagBytes .en10mb m := by
  simp only [ethernetGetHeaderIp, pppoeGetHeaderIp, Nat.reduceMul, Nat.reduceAdd, Nat.zero_add]
    at h
  rw [tagBytes, if_pos rfl]
  split_ifs at h with hip hvlan hinner hpppoe hsession hdouble hqinq hdouble' hpppoe' hsession' <;>
    obtain rfl := Option.some.inj h
  · rcases hip with hip | hip <;> rw [hip] <;> rfl
  · rw [if_pos hvlan, if_pos hinner]
  · rw [if_pos hvlan, if_neg hinner, if_pos hpppoe]
  · rw [if_pos hvlan, if_neg hinner, if_neg hpppoe]
  · rw [if_neg hvlan, if_pos hqinq]
  · rw [if_neg hvlan, if_neg hqinq, if_pos hpppoe']

/-- Where the IP header is. -/
lemma headerIp_eq {dlt : Dlt} {m : Bytes} {ip : ℕ} (h : headerIp dlt m = some ip) :
    ip = dlt.offsetToIp + tagBytes dlt m + tunnelBytes dlt m := by
  obtain ⟨outer, houter, rfl⟩ := Option.map_eq_some_iff.mp h
  have heq : outer = dlt.offsetToIp + tagBytes dlt m := by
    cases dlt with
    | en10mb => exact ethernetGetHeaderIp_eq houter
    | linuxSll => exact (Option.some.inj houter).symm
    | raw => exact (Option.some.inj houter).symm
  rw [skipTunnelIpHeader, tunnelBytes, ← heq]
  split <;> rfl

/-- Where the payload of a UDP packet is. -/
lemma dataPos_eq {dlt : Dlt} {m : Bytes} {ip : ℕ} (h : headerIp dlt m = some ip)
    (hudp : isUdp m ip) : dataPos m ip =
      testedBytes dlt m ip + (tagBytes dlt m + tunnelBytes dlt m + fragmentBytes m ip) := by
  have hip := headerIp_eq h
  rw [dataPos, if_pos hudp, headerUdp, testedBytes, fragmentBytes]
  omega

lemma dataLen_of_le {p : Packet} {data : ℕ} (h : data ≤ min p.len.toNat p.caplen) :
    dataLen p data = min p.len.toNat p.caplen - data := by
  have hlt : min p.len.toNat p.caplen < UInt64.size := by
    have hlen := p.len.toNat_lt
    have hsize : UInt64.size = 2 ^ 64 := rfl
    omega
  have hmin := UInt64.toNat_ofNat_of_lt' hlt
  have hdata := UInt64.toNat_ofNat_of_lt' (h.trans_lt hlt)
  rw [dataLen, UInt64.toNat_sub_of_le, hmin, hdata]
  rw [UInt64.le_iff_toNat_le, hmin, hdata]
  exact h

lemma testedBytes_le {dlt : Dlt} {useTcp : Bool} {caplen : ℕ} {m : Bytes} {ip : ℕ}
    (h : isAdmitted useTcp dlt caplen m ip) : testedBytes dlt m ip ≤ caplen := by
  simp only [isAdmitted, isTcp, isFragment6, Bool.or_eq_true, Bool.and_eq_true,
    decide_eq_true_eq] at h
  rw [testedBytes]
  by_cases h4 : ipVersion m ip = 4
  · have h6 := ipVersion_ne_six h4
    simp only [h6, false_and, or_false] at h
    rw [if_pos h4]
    omega
  · simp only [h4, false_and, false_or] at h
    rw [if_neg h4]
    omega

/-- **The length of the payload.**  In a packet that the UDP branch takes, the payload starts
within what is captured, and its length is not a wrapped number, if and only if the tags, the
tunnel header and the fragment header fit into what is captured beyond the tested size, and into
the length on the wire. -/
theorem payload_length_iff (useTcp : Bool) {dlt : Dlt} {p : Packet} {ip : ℕ}
    (hip : headerIp dlt p.mem = some ip) (hadmitted : isAdmitted useTcp dlt p.caplen p.mem ip)
    (hudp : isUdp p.mem ip) :
    (dataPos p.mem ip ≤ min p.len.toNat p.caplen ∧
        dataLen p (dataPos p.mem ip) = min p.len.toNat p.caplen - dataPos p.mem ip) ↔
      tagBytes dlt p.mem + tunnelBytes dlt p.mem + fragmentBytes p.mem ip ≤
          p.caplen - testedBytes dlt p.mem ip ∧
        testedBytes dlt p.mem ip +
            (tagBytes dlt p.mem + tunnelBytes dlt p.mem + fragmentBytes p.mem ip) ≤
          p.len.toNat := by
  have htested := testedBytes_le hadmitted
  have hpos := dataPos_eq hip hudp
  constructor
  · rintro ⟨hle, -⟩
    omega
  · intro h
    have hle : dataPos p.mem ip ≤ min p.len.toNat p.caplen := by omega
    exact ⟨hle, dataLen_of_le hle⟩

/-- An Ethernet frame with a VLAN tag and the size of an untagged frame without payload. -/
def shortVlanFrame : Packet :=
  Packet.captured 0 (List.replicate 12 0 ++ [0x81, 0, 0, 1, 0x08, 0] ++
    (ipv4Udp 1 0 [10, 0, 0, 1] [10, 0, 0, 2] 5060 5060 []).take 24)

theorem payload_length_short :
    ¬(dataPos shortVlanFrame.mem 18 ≤ min shortVlanFrame.len.toNat shortVlanFrame.caplen ∧
        dataLen shortVlanFrame (dataPos shortVlanFrame.mem 18) =
          min shortVlanFrame.len.toNat shortVlanFrame.caplen - dataPos shortVlanFrame.mem 18) := by
  -- the tag does not fit beside the tested bytes
  rw [@payload_length_iff false .en10mb shortVlanFrame 18 (by decide +kernel) (by decide +kernel)
    (by decide +kernel)]
  decide +kernel

/-- Its payload starts four bytes behind what is captured. -/
theorem payload_length_false :
    ¬∀ (dlt : Dlt) (p : Packet) (ip : ℕ), headerIp dlt p.mem = some ip →
      isAdmitted false dlt p.caplen p.mem ip → isUdp p.mem ip →
      dataPos p.mem ip ≤ min p.len.toNat p.caplen ∧
        dataLen p (dataPos p.mem ip) = min p.len.toNat p.caplen - dataPos p.mem ip := by
  intro h
  have hle := (h .en10mb shortVlanFrame 18 (by decide +kernel) (by decide +kernel)
    (by decide +kernel)).1
  exact absurd hle (by decide +kernel)

end PcapSipDump
