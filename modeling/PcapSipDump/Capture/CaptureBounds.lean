import PcapSipDump.Capture.Dissector
import PcapSipDump.Capture.PayloadLength

/-!
# What of a frame has to be captured

The dissector tests the length of a frame once, and against the size of an untagged one.  How far
it reads depends on what it reads.

* `within_ethernetGetHeaderIp`, `within_fragment4`, `within_fragment6`, `within_admitted`: how far
  the parts of the dispatch read;
* `dissector_in_capture_iff`: the reads stay within the captured bytes exactly when the tags, the
  header and the payload are captured as far as they are looked at.
-/

namespace PcapSipDump

open Lib Lib.CString Lib.Reads

namespace Dissector

section Bounds

variable {n : ℕ} {m : Bytes} (o : Options) (ip i : ℕ)

@[simp] lemma within_be16 : (be16 i).Within n m ↔ i + 2 ≤ n := by
  simp only [be16, within_bind, within_read, within_pure, and_true]
  omega

@[simp] lemma within_le16 : (le16 i).Within n m ↔ i + 2 ≤ n := by
  simp only [le16, within_bind, within_read, within_pure, and_true]
  omega

@[simp] lemma within_be32 : (be32 i).Within n m ↔ i + 4 ≤ n := by
  simp only [be32, within_bind, within_be16, within_pure, and_true]
  omega

@[simp] lemma within_le32 : (le32 i).Within n m ↔ i + 4 ≤ n := by
  simp only [le32, within_bind, within_le16, within_pure, and_true]
  omega

@[simp] lemma within_bytes_succ (k : ℕ) : (bytes i (k + 1)).Within n m ↔ i + (k + 1) ≤ n := by
  induction k generalizing i with
  | zero =>
    simp only [bytes, within_bind, within_read, within_pure, and_true]
    omega
  | succ k ih =>
    rw [bytes]
    simp only [within_bind, within_read, ih, within_pure, and_true]
    omega

@[simp] lemma within_byteIs (c : UInt8) : (byteIs c i).Within n m ↔ i + 1 ≤ n := by
  simp only [byteIs, within_bind, within_read, within_pure, and_true]
  omega

@[simp] lemma within_versionIs (v : UInt8) : (versionIs v ip).Within n m ↔ ip + 1 ≤ n := by
  simp only [versionIs, within_bind, within_read, within_pure, and_true]
  omega

@[simp] lemma within_hashAddr : (hashAddr i).Within n m ↔ i + 16 ≤ n := by
  simp only [hashAddr, within_bind, within_le32, within_pure, and_true]
  omega

/-! ### The tags of an Ethernet frame -/

lemma within_ethertype (base : ℕ) : (ethertype base i).Within n m ↔ base + 14 + 2 * i ≤ n := by
  rw [ethertype, within_be16]
  omega

/-- How far a frame that starts at `base` is read if it turns out unfamiliar after `read` bytes. -/
def unfamiliarReach (verbosity : ℤ) (base read : ℕ) : ℕ :=
  if 4 ≤ verbosity then base + 24 else read

/-- How far the tags of a PPPoE frame that starts at `base` are read. -/
def pppoeReach (verbosity : ℤ) (m : Bytes) (base : ℕ) : ℕ :=
  if (PcapSipDump.pppoeGetHeaderIp m base).isSome ∨ PcapSipDump.be16 m (base + 20) = 0xc021 then
    base + 22
  else unfamiliarReach verbosity base (base + 22)

/-- How far two VLAN tags are read. -/
def doubleTaggedReach (verbosity : ℤ) (m : Bytes) : ℕ :=
  if PcapSipDump.be16 m 16 = 0x8100 then
    if PcapSipDump.be16 m 20 = 0x0800 then 22 else unfamiliarReach verbosity 0 22
  else unfamiliarReach verbosity 0 18

/-- How far the tags of an Ethernet frame are read. -/
def ethernetReach (verbosity : ℤ) (m : Bytes) : ℕ :=
  let type := PcapSipDump.be16 m 12
  let inner := PcapSipDump.be16 m 16
  if type = 0x0800 ∨ type = 0x86dd then 14
  else if type = 0x8100 then
    if inner = 0x0800 ∨ inner = 0x86dd then 18
    else if inner = 0x8864 then pppoeReach verbosity m 4
    else doubleTaggedReach verbosity m
  else if type = 0x9100 ∨ type = 0x88a8 then doubleTaggedReach verbosity m
  else if type = 0x8864 then pppoeReach verbosity m 0
  else unfamiliarReach verbosity 0 14

lemma within_unfamiliar {verbosity : ℤ} {base read : ℕ} (hread : read ≤ base + 24) :
    (read ≤ n ∧ (unfamiliar verbosity base).Within n m) ↔
      unfamiliarReach verbosity base read ≤ n := by
  rw [unfamiliar, unfamiliarReach, within_ite]
  split_ifs
  · simp only [within_bind, within_ethertype, within_pure, and_true]
    omega
  · simp only [within_pure, and_true]

lemma le_pppoeReach (verbosity : ℤ) (base : ℕ) : base + 22 ≤ pppoeReach verbosity m base := by
  rw [pppoeReach, unfamiliarReach]
  split_ifs <;> omega

lemma within_pppoeGetHeaderIp (verbosity : ℤ) (base : ℕ) :
    (pppoeGetHeaderIp verbosity base).Within n m ↔ pppoeReach verbosity m base ≤ n := by
  have hreads : base + 14 + 2 * 1 ≤ n ∧ base + 14 + 2 * 4 ≤ n ↔ base + 22 ≤ n := by omega
  simp only [pppoeGetHeaderIp, within_bind, within_ethertype, value_ethertype, within_ite,
    within_pure, ← and_assoc, hreads, pppoeReach, PcapSipDump.pppoeGetHeaderIp]
  split
  · simp only [Option.isSome_some, true_or, if_true, and_true]
  · simp only [Option.isSome_none, Bool.false_eq_true, false_or]
    split
    · exact and_iff_left trivial
    · exact within_unfamiliar (Nat.add_le_add_left (by decide) base)

lemma within_doubleTagged (verbosity : ℤ) :
    (doubleTagged verbosity).Within n m ↔ doubleTaggedReach verbosity m ≤ n := by
  simp only [doubleTagged, within_bind, within_ethertype, value_ethertype, within_ite,
    within_pure, doubleTaggedReach, Nat.reduceMul, Nat.reduceAdd]
  split
  · have hreads : 18 ≤ n ∧ 22 ≤ n ↔ 22 ≤ n := by omega
    rw [← and_assoc, hreads]
    split
    · exact and_iff_left trivial
    · exact within_unfamiliar (by decide)
  · exact within_unfamiliar (by decide)

lemma le_doubleTaggedReach (verbosity : ℤ) : 18 ≤ doubleTaggedReach verbosity m := by
  rw [doubleTaggedReach, unfamiliarReach, unfamiliarReach]
  split_ifs <;> omega

/-- **The tags** are read up to `ethernetReach`. -/
lemma within_ethernetGetHeaderIp (verbosity : ℤ) :
    (ethernetGetHeaderIp verbosity).Within n m ↔ ethernetReach verbosity m ≤ n := by
  have hpppoe := fun base => le_pppoeReach (m := m) verbosity base
  have hdouble := le_doubleTaggedReach (m := m) verbosity
  simp only [ethernetGetHeaderIp, within_bind, within_ethertype, value_ethertype, within_ite,
    within_pure, within_pppoeGetHeaderIp, within_doubleTagged, ethernetReach, Nat.reduceMul,
    Nat.reduceAdd]
  split
  · exact and_iff_left trivial
  split
  · split
    · rw [and_true]
      omega
    split
    · have := hpppoe 4
      omega
    · omega
  split
  · omega
  split
  · have := hpppoe 0
    omega
  · exact within_unfamiliar (by decide)

lemma within_linkHeader : (linkHeader o).Within n m ↔
    (o.dlt = .en10mb → ethernetReach o.verbosity m ≤ n) := by
  rw [linkHeader, within_ite, within_ethernetGetHeaderIp]
  split <;> simp_all

/-! ### The IP header -/

lemma within_skipTunnelIpHeader : (skipTunnelIpHeader ip).Within n m ↔
    ip + 1 ≤ n ∧ (ipVersion m ip = 6 → ip + 7 ≤ n) := by
  simp only [skipTunnelIpHeader, within_bind, within_andM, within_versionIs, value_versionIs,
    within_byteIs, within_ite, within_pure, ite_self, and_true, decide_eq_true_eq]

@[simp] lemma within_isFragment6 : (isFragment6 ip).Within n m ↔
    ip + 1 ≤ n ∧ (ipVersion m ip = 6 → ip + 7 ≤ n) := by
  simp only [isFragment6, within_andM, within_versionIs, value_versionIs, within_byteIs,
    decide_eq_true_eq]

lemma within_isLaterFragment4 : (isLaterFragment4 ip).Within n m ↔
    ip + 1 ≤ n ∧ (ipVersion m ip = 4 → ip + 8 ≤ n) := by
  simp only [isLaterFragment4, within_andM, within_versionIs, value_versionIs, within_bind,
    within_be16, within_pure, and_true, decide_eq_true_eq]

lemma within_isLaterFragment6 : (isLaterFragment6 ip).Within n m ↔
    (ip + 1 ≤ n ∧ (ipVersion m ip = 6 → ip + 7 ≤ n)) ∧
      (PcapSipDump.isFragment6 m ip → ip + 41 ≤ n ∧
        (u8 m (ip + 40) = ipprotoUdp → ip + 44 ≤ n)) := by
  simp only [isLaterFragment6, within_andM, within_isFragment6, value_isFragment6, within_byteIs,
    value_byteIs, within_bind, within_be16, within_pure, and_true, decide_eq_true_eq]

@[simp] lemma within_hsaddr : (hsaddr ip).Within n m ↔
    ip + 1 ≤ n ∧ if ipVersion m ip = 4 then ip + 16 ≤ n else ip + 24 ≤ n := by
  simp only [hsaddr, within_bind, within_versionIs, value_versionIs, within_ite, within_le32,
    within_hashAddr, decide_eq_true_eq]

@[simp] lemma within_hdaddr : (hdaddr ip).Within n m ↔
    ip + 1 ≤ n ∧ if ipVersion m ip = 4 then ip + 20 ≤ n else ip + 40 ≤ n := by
  simp only [hdaddr, within_bind, within_versionIs, value_versionIs, within_ite, within_le32,
    within_hashAddr, decide_eq_true_eq]

lemma within_addrAddrId4 : (addrAddrId4 ip).Within n m ↔ ip + 20 ≤ n := by
  simp only [addrAddrId4, within_bind, within_le32, within_le16, within_pure, and_true]
  omega

lemma within_addrAddrId6 (h6 : ipVersion m ip = 6) :
    (addrAddrId6 ip).Within n m ↔ ip + 48 ≤ n := by
  have h4 := ipVersion_ne_four h6
  simp only [addrAddrId6, within_bind, within_hsaddr, within_hdaddr, within_le32, within_pure,
    and_true, if_neg h4]
  omega

lemma within_fragment (ct : Calltable) {key : Reads AddrAddrId} {more k : ℕ}
    (hkey : key.Within n m ↔ k ≤ n) (hmore : more + 2 ≤ k) :
    (fragment ct key more).Within n m ↔ k ≤ n := by
  simp only [fragment, within_bind, hkey, within_ite, within_be16, within_pure, and_true]
  split
  · omega
  · exact and_iff_left trivial

/-- How far the branch for IPv4 fragments and its test read a packet with its header at `ip`. -/
def fragmentReach4 (m : Bytes) (ip : ℕ) : ℕ :=
  if PcapSipDump.isLaterFragment4 m ip then ip + 20
  else if ipVersion m ip = 4 then ip + 8
  else ip + 1

/-- How far the branch for IPv6 fragments and its test read a packet with its header at `ip`. -/
def fragmentReach6 (m : Bytes) (ip : ℕ) : ℕ :=
  if PcapSipDump.isLaterFragment6 m ip then ip + 48
  else if PcapSipDump.isFragment6 m ip then
    if u8 m (ip + 40) = ipprotoUdp then ip + 44 else ip + 41
  else if ipVersion m ip = 6 then ip + 7
  else ip + 1

lemma of_isLaterFragment6 (h : PcapSipDump.isLaterFragment6 m ip) :
    PcapSipDump.isFragment6 m ip ∧ u8 m (ip + 40) = ipprotoUdp := by
  rw [PcapSipDump.isLaterFragment6, Bool.and_eq_true, Bool.and_eq_true, decide_eq_true_eq] at h
  exact h.1

/-- **The branch for IPv4 fragments** reads up to `fragmentReach4`. -/
lemma within_fragment4 (ct : Calltable) (rest : Reads Kind) :
    (do if ← isLaterFragment4 ip then fragment ct (addrAddrId4 ip) (ip + 6) else rest).Within n m ↔
      fragmentReach4 m ip ≤ n ∧ (PcapSipDump.isLaterFragment4 m ip = false → rest.Within n m) := by
  have hkey : (fragment ct (addrAddrId4 ip) (ip + 6)).Within n m ↔ ip + 20 ≤ n :=
    within_fragment ct (within_addrAddrId4 ip) (by omega)
  simp only [within_bind, within_isLaterFragment4, value_isLaterFragment4, within_ite, hkey,
    fragmentReach4]
  by_cases hlater : PcapSipDump.isLaterFragment4 m ip
  · simp only [hlater, if_true, Bool.true_eq_false, false_imp_iff, and_true]
    omega
  · simp only [hlater, Bool.false_eq_true, if_false, true_imp_iff, and_congr_left_iff]
    rintro -
    split_ifs with h4
    · simp only [h4, true_imp_iff]
      omega
    · simp only [h4, false_imp_iff, and_true]

/-- **The branch for IPv6 fragments** reads up to `fragmentReach6`. -/
lemma within_fragment6 (ct : Calltable) (rest : Reads Kind) :
    (do if ← isLaterFragment6 ip then fragment ct (addrAddrId6 ip) (ip + 42) else rest).Within n m ↔
      fragmentReach6 m ip ≤ n ∧ (PcapSipDump.isLaterFragment6 m ip = false → rest.Within n m) := by
  simp only [within_bind, within_isLaterFragment6, value_isLaterFragment6, within_ite,
    fragmentReach6]
  by_cases hlater : PcapSipDump.isLaterFragment6 m ip
  · obtain ⟨hfrag, hudp⟩ := of_isLaterFragment6 ip hlater
    have h6 := ipVersion_of_isFragment6 hfrag
    have hkey : (fragment ct (addrAddrId6 ip) (ip + 42)).Within n m ↔ ip + 48 ≤ n :=
      within_fragment ct (within_addrAddrId6 ip h6) (by omega)
    simp only [hlater, hkey, hfrag, h6, hudp, if_true, true_imp_iff, Bool.true_eq_false,
      false_imp_iff, and_true]
    omega
  · simp only [hlater, Bool.false_eq_true, if_false, true_imp_iff, and_congr_left_iff]
    rintro -
    split_ifs with hfrag hudp h6
    · simp only [ipVersion_of_isFragment6 hfrag, hfrag, hudp, true_imp_iff]
      omega
    · simp only [ipVersion_of_isFragment6 hfrag, hfrag, hudp, true_imp_iff, false_imp_iff,
        and_true]
      omega
    · simp only [h6, hfrag, Bool.false_eq_true, true_imp_iff, false_imp_iff, and_true]
      omega
    · simp only [h6, hfrag, Bool.false_eq_true, false_imp_iff, and_true]

/-- The tests for UDP and TCP look at `protocol`. -/
def LooksAtProtocol (useTcp : Bool) (dlt : Dlt) (caplen : ℕ) (m : Bytes) (ip : ℕ) : Prop :=
  (ipVersion m ip = 4 ∧ dlt.offsetToIp + 20 + 8 ≤ caplen) ∨
    (useTcp ∧ ipVersion m ip = 6 ∧ dlt.offsetToIp + 40 + 20 ≤ caplen ∧
      ¬PcapSipDump.isUdp m ip)

lemma of_fragmentReach6_le (h : fragmentReach6 m ip ≤ n) :
    ip + 1 ≤ n ∧ (ipVersion m ip = 6 → ip + 7 ≤ n) ∧
      (PcapSipDump.isFragment6 m ip → ip + 41 ≤ n) := by
  rw [fragmentReach6] at h
  split_ifs at h with hlater hfrag hudp h6
  · exact ⟨by omega, fun _ => by omega, fun _ => by omega⟩
  · exact ⟨by omega, fun _ => by omega, fun _ => by omega⟩
  · exact ⟨by omega, fun _ => by omega, fun _ => by omega⟩
  · exact ⟨by omega, fun _ => h, fun hf => absurd hf hfrag⟩
  · exact ⟨h, fun hv => absurd hv h6, fun hf => absurd hf hfrag⟩

lemma within_isAdmitted (useTcp : Bool) (dlt : Dlt) (caplen : ℕ) (h : fragmentReach6 m ip ≤ n) :
    (isAdmitted useTcp dlt caplen ip).Within n m ↔
      (LooksAtProtocol useTcp dlt caplen m ip → ip + 10 ≤ n) := by
  obtain ⟨hversion, h6, hfrag⟩ := of_fragmentReach6_le ip h
  simp only [isAdmitted, isTcp, within_orM, within_andM, value_andM, within_versionIs,
    value_versionIs, within_byteIs, value_byteIs, within_pure, value_pure, LooksAtProtocol,
    PcapSipDump.isUdp, PcapSipDump.isFragment6, decide_eq_true_eq, Bool.and_eq_false_iff,
    decide_eq_false_iff_not, Bool.and_eq_true, Bool.or_eq_true, protocol, nexthdr] at *
  grind

/-! ### The payload -/

lemma within_isUdp (h : fragmentReach6 m ip ≤ n) (h4 : ipVersion m ip = 4 → ip + 10 ≤ n) :
    (isUdp ip).Within n m := by
  obtain ⟨hversion, h6, hfrag⟩ := of_fragmentReach6_le ip h
  simp only [isUdp, within_orM, within_andM, within_versionIs, value_versionIs, within_byteIs,
    within_isFragment6, value_isFragment6, decide_eq_true_eq]
  exact ⟨⟨hversion, h4⟩, fun _ => ⟨⟨hversion, h6⟩, fun _ => ⟨⟨hversion, h6⟩, hfrag⟩⟩⟩

lemma within_headerUdp (h : fragmentReach6 m ip ≤ n) : (headerUdp ip).Within n m := by
  obtain ⟨hversion, h6, -⟩ := of_fragmentReach6_le ip h
  simp only [headerUdp, within_bind, within_isFragment6, within_versionIs, within_pure, and_true]
  exact ⟨⟨hversion, h6⟩, hversion⟩

lemma within_dataPos (header : ℕ) (h : fragmentReach6 m ip ≤ n)
    (h4 : ipVersion m ip = 4 → ip + 10 ≤ n) : (dataPos ip header).Within n m ↔
      (¬PcapSipDump.isUdp m ip → header + 13 ≤ n) := by
  have hudp := within_isUdp ip h h4
  simp only [dataPos, within_bind, hudp, true_and, value_isUdp, within_ite, within_pure,
    within_read, and_true]
  split <;> simp_all
  omega

lemma within_getSsrc (data : ℕ) (isRtcp : Bool) :
    (getSsrc data isRtcp).Within n m ↔ data + (if isRtcp then 8 else 12) ≤ n := by
  rw [getSsrc, within_be32]
  split <;> rfl

/-- The length of the IP header that the addresses are in. -/
lemma le_headerUdp (m : Bytes) (ip : ℕ) :
    ip + (if ipVersion m ip = 4 then 20 else 40) ≤ PcapSipDump.headerUdp m ip := by
  rw [PcapSipDump.headerUdp]
  omega

/-- Where the SSRC of a packet ends. -/
def ssrcEnd (o : Options) (m : Bytes) (ip : ℕ) : ℕ :=
  PcapSipDump.dataPos m ip +
    if o.optRtpsave = .rtpRtcp ∧ sourcePort m ip &&& 1 ≠ 0 ∧ destPort m ip &&& 1 ≠ 0 then 8
    else 12

lemma within_isRtcp (header : ℕ) (hports : header + 4 ≤ n) : (isRtcp o header).Within n m := by
  simp only [isRtcp, isOdd, within_andM, within_pure, within_bind, within_be16, and_true]
  exact ⟨trivial, fun _ => ⟨by omega, fun _ => by omega⟩⟩

/-- The addresses lie before the ports. -/
lemma within_addr (hports : PcapSipDump.headerUdp m ip + 4 ≤ n) :
    (hsaddr ip).Within n m ∧ (hdaddr ip).Within n m := by
  have hle := le_headerUdp m ip
  rw [within_hsaddr, within_hdaddr]
  split_ifs at hle ⊢ <;> omega

lemma within_rtpLookup (ct : Calltable) :
    (rtpLookup o ct ip (PcapSipDump.headerUdp m ip) (PcapSipDump.dataPos m ip)).Within n m ↔
      (o.optRtpsave ≠ .none → PcapSipDump.headerUdp m ip + 4 ≤ n ∧ ssrcEnd o m ip ≤ n) := by
  rw [rtpLookup]
  by_cases hsave : o.optRtpsave = .none
  · rw [if_pos hsave]
    exact iff_of_true trivial fun h => absurd hsave h
  have hssrc : (getSsrc (PcapSipDump.dataPos m ip)
      ((isRtcp o (PcapSipDump.headerUdp m ip)).value m)).Within n m ↔ ssrcEnd o m ip ≤ n := by
    rw [within_getSsrc, value_isRtcp, ssrcEnd]
    simp only [Bool.and_eq_true, decide_eq_true_eq, and_assoc]
  rw [if_neg hsave]
  simp only [within_bind, within_be16, hssrc, ne_eq, hsave, not_false_eq_true, true_imp_iff]
  constructor
  · rintro ⟨-, -, hports, hend, -⟩
    exact ⟨hports, hend⟩
  · rintro ⟨hports, hend⟩
    obtain ⟨hsrc, hdst⟩ := within_addr ip hports
    refine ⟨within_isRtcp o _ hports, hdst, hports, hend, ?_⟩
    -- the second lookup reads the other pair
    split
    · trivial
    · simp only [within_bind, within_be16, hssrc]
      exact ⟨hsrc, by omega, hend, trivial⟩

lemma within_sipMethod (data : ℕ) : (sipMethod data).Within n m ↔ data + 9 ≤ n := by
  simp only [sipMethod, within_bind, within_bytes_succ]
  refine and_iff_left_of_imp fun hend => ?_
  split
  · trivial
  · simp only [within_bind, within_bytes_succ, within_pure, and_true]
    omega

lemma within_printSkipped (hports : PcapSipDump.headerUdp m ip + 4 ≤ n) :
    (printSkipped ip (PcapSipDump.headerUdp m ip)).Within n m := by
  have hle := le_headerUdp m ip
  simp only [printSkipped, within_bind, within_versionIs, value_versionIs, within_ite,
    within_bytes_succ, within_be16, within_pure, and_true, decide_eq_true_eq]
  split_ifs at hle ⊢ <;> omega

/-- What the branch for an admitted packet reads is captured. -/
structure PayloadCaptured (o : Options) (w : World) (m : Bytes) (n ip : ℕ) : Prop where
  /-- The header length of a packet that is not UDP. -/
  doff : ¬PcapSipDump.isUdp m ip → PcapSipDump.headerUdp m ip + 13 ≤ n
  /-- The SSRC, in the modes that save media. -/
  ssrc : o.optRtpsave ≠ .none → ssrcEnd o m ip ≤ n
  /-- The place for the method, in a packet of no flow. -/
  method : (PcapSipDump.rtpLookup o m ip w).1 = none → PcapSipDump.dataPos m ip + 9 ≤ n

lemma PayloadCaptured.ports {w : World} (h : PayloadCaptured o w m n ip) :
    PcapSipDump.headerUdp m ip + 4 ≤ n := by
  by_cases hudp : PcapSipDump.isUdp m ip
  · have hdata : PcapSipDump.dataPos m ip = PcapSipDump.headerUdp m ip + 8 := if_pos hudp
    by_cases hsave : o.optRtpsave = .none
    · have hnone : (PcapSipDump.rtpLookup o m ip w).1 = none := by
        rw [PcapSipDump.rtpLookup, if_pos hsave]
      have := h.method hnone
      omega
    · have := h.ssrc hsave
      rw [ssrcEnd] at this
      omega
  · have := h.doff hudp
    omega

/-- **The branch for an admitted packet** reads what `PayloadCaptured` says. -/
lemma within_admitted (w : World) (h : fragmentReach6 m ip ≤ n)
    (h4 : ipVersion m ip = 4 → ip + 10 ≤ n) :
    (admitted o w.ct ip).Within n m ↔ PayloadCaptured o w m n ip := by
  simp only [admitted, within_bind, within_headerUdp ip h, value_headerUdp, true_and,
    within_dataPos ip _ h h4, value_dataPos, within_rtpLookup, value_rtpLookup]
  constructor
  · rintro ⟨hdoff, hlookup, hrest⟩
    refine ⟨hdoff, fun hsave => (hlookup hsave).2, fun hnone => ?_⟩
    simp only [hnone, within_bind, within_sipMethod] at hrest
    exact hrest.1
  · intro hp
    refine ⟨hp.doff, fun hsave => ⟨hp.ports, hp.ssrc hsave⟩, ?_⟩
    rcases hfound : (PcapSipDump.rtpLookup o m ip w).1 with _ | f
    · simp only [within_bind, within_sipMethod]
      refine ⟨hp.method hfound, ?_⟩
      split
      · trivial
      · rw [within_ite]
        split
        · simp only [within_bind, within_printSkipped ip hp.ports, within_pure, and_true]
        · trivial
    · rw [within_ite]
      split
      · rename_i hevent
        have hend := hp.ssrc (by rw [hevent.2]; decide)
        rw [ssrcEnd] at hend
        simp only [within_bind, within_read, within_pure, and_true]
        split_ifs at hend <;> omega
      · trivial

/-! ### The dispatch -/

lemma looksAtProtocol_of_isAdmitted {useTcp : Bool} {dlt : Dlt} {caplen : ℕ}
    (h : PcapSipDump.isAdmitted useTcp dlt caplen m ip) (h4 : ipVersion m ip = 4) :
    LooksAtProtocol useTcp dlt caplen m ip := by
  have htested := testedBytes_le h
  rw [testedBytes, if_pos h4] at htested
  exact Or.inl ⟨h4, htested⟩

lemma not_looksAtProtocol_of_isLaterFragment6 {useTcp : Bool} {dlt : Dlt} {caplen : ℕ}
    (h : PcapSipDump.isLaterFragment6 m ip) : ¬LooksAtProtocol useTcp dlt caplen m ip := by
  obtain ⟨hfrag, hbyte⟩ := of_isLaterFragment6 ip h
  have h6 := ipVersion_of_isFragment6 hfrag
  rintro (⟨h4, -⟩ | ⟨-, -, -, hudp⟩)
  · exact ipVersion_ne_four h6 h4
  · refine hudp ?_
    rw [PcapSipDump.isUdp, hfrag, decide_eq_true hbyte]
    exact Bool.or_true _

/-- The header of a later IPv4 fragment is no IPv6 header. -/
lemma fragmentReach6_of_isLaterFragment4 (h : PcapSipDump.isLaterFragment4 m ip) :
    fragmentReach6 m ip = ip + 1 := by
  rw [PcapSipDump.isLaterFragment4, Bool.and_eq_true, decide_eq_true_eq] at h
  have h6 := ipVersion_ne_six h.1
  have hfrag := isFragment6_eq_false h.1
  have hlater : PcapSipDump.isLaterFragment6 m ip = false := by
    rw [PcapSipDump.isLaterFragment6, hfrag]
    rfl
  rw [fragmentReach6, hlater, hfrag]
  simp only [Bool.false_eq_true, if_false, h6]

/-- The header of a tunnel lies before the header that is dispatched on. -/
lemma within_tunnel {link : ℕ}
    (h : fragmentReach6 m (PcapSipDump.skipTunnelIpHeader m link) ≤ n) :
    (skipTunnelIpHeader link).Within n m := by
  obtain ⟨hversion, h6, -⟩ := of_fragmentReach6_le _ h
  rw [within_skipTunnelIpHeader]
  rw [PcapSipDump.skipTunnelIpHeader] at hversion h6
  split_ifs at hversion h6
  · exact ⟨by omega, fun _ => by omega⟩
  · exact ⟨hversion, h6⟩

/-- What the dispatch on a packet with its IP header at `ip` reads is captured. -/
structure HeaderCaptured (o : Options) (w : World) (p : Packet) (ip : ℕ) : Prop where
  /-- The fields that IPv4 fragments are told by and looked up under. -/
  fragment4 : fragmentReach4 p.mem ip ≤ p.caplen
  /-- The fields that IPv6 fragments are told by and looked up under. -/
  fragment6 : fragmentReach6 p.mem ip ≤ p.caplen
  /-- The protocol, where the length test lets it be looked at. -/
  protocol : LooksAtProtocol o.useTcp o.dlt p.caplen p.mem ip → ip + 10 ≤ p.caplen
  /-- The payload of an admitted packet. -/
  payload : PcapSipDump.isLaterFragment4 p.mem ip = false →
    PcapSipDump.isLaterFragment6 p.mem ip = false →
    PcapSipDump.isAdmitted o.useTcp o.dlt p.caplen p.mem ip → PayloadCaptured o w p.mem p.caplen ip

/-- **The dispatch on an IP packet** reads what `HeaderCaptured` says. -/
lemma within_dispatchIp (w : World) (p : Packet) :
    (dispatchIp o w.ct p.caplen ip).Within p.caplen p.mem ↔ HeaderCaptured o w p ip := by
  rw [dispatchIp, within_fragment4, within_fragment6, within_bind, value_isAdmitted, within_ite]
  constructor
  · rintro ⟨h4, hrest⟩
    have h6 : fragmentReach6 p.mem ip ≤ p.caplen := by
      by_cases hl4 : PcapSipDump.isLaterFragment4 p.mem ip
      · rw [fragmentReach6_of_isLaterFragment4 ip hl4]
        rw [fragmentReach4, if_pos hl4] at h4
        omega
      · exact (hrest (Bool.eq_false_of_not_eq_true hl4)).1
    have hprotocol : LooksAtProtocol o.useTcp o.dlt p.caplen p.mem ip → ip + 10 ≤ p.caplen := by
      intro hlooks
      by_cases hl4 : PcapSipDump.isLaterFragment4 p.mem ip
      · rw [fragmentReach4, if_pos hl4] at h4
        omega
      have hl6 : PcapSipDump.isLaterFragment6 p.mem ip = false := by
        refine Bool.eq_false_of_not_eq_true fun hl6 => ?_
        exact not_looksAtProtocol_of_isLaterFragment6 ip hl6 hlooks
      have hadm := ((hrest (Bool.eq_false_of_not_eq_true hl4)).2 hl6).1
      exact (within_isAdmitted ip _ _ _ h6).mp hadm hlooks
    refine ⟨h4, h6, hprotocol, fun hl4 hl6 hadm => ?_⟩
    have hbranch := ((hrest hl4).2 hl6).2
    rw [if_pos hadm] at hbranch
    exact (within_admitted o ip w h6 fun hv =>
      hprotocol (looksAtProtocol_of_isAdmitted ip hadm hv)).mp hbranch
  · intro h
    refine ⟨h.fragment4, fun hl4 => ⟨h.fragment6, fun hl6 => ⟨?_, ?_⟩⟩⟩
    · exact (within_isAdmitted ip _ _ _ h.fragment6).mpr h.protocol
    · split
      · rename_i hadm
        exact (within_admitted o ip w h.fragment6 fun hv =>
          h.protocol (looksAtProtocol_of_isAdmitted ip hadm hv)).mpr (h.payload hl4 hl6 hadm)
      · trivial

/-- What the dispatch of a frame reads is captured. -/
structure FrameCaptured (o : Options) (w : World) (p : Packet) : Prop where
  tags : o.dlt = .en10mb → ethernetReach o.verbosity p.mem ≤ p.caplen
  header : ∀ ip, headerIp o.dlt p.mem = some ip → HeaderCaptured o w p ip

/-- **The dispatch of a frame** reads what `FrameCaptured` says. -/
theorem within_dispatch (w : World) (p : Packet) :
    (dispatch o w.ct p.caplen).Within p.caplen p.mem ↔ FrameCaptured o w p := by
  have hlink := value_linkHeader p.mem o
  rw [dispatch, within_bind, within_linkHeader]
  rcases hl : (linkHeader o).value p.mem with _ | link
  · rw [hl] at hlink
    have hip : headerIp o.dlt p.mem = none := hlink.symm
    refine ⟨fun h => ⟨h.1, fun ip hsome => ?_⟩, fun h => ⟨h.tags, trivial⟩⟩
    rw [hip] at hsome
    cases hsome
  · rw [hl] at hlink
    have hip : headerIp o.dlt p.mem = some (PcapSipDump.skipTunnelIpHeader p.mem link) :=
      hlink.symm
    dsimp only
    rw [within_bind, value_skipTunnelIpHeader, within_dispatchIp]
    constructor
    · rintro ⟨htags, -, hheader⟩
      refine ⟨htags, fun ip hsome => ?_⟩
      obtain rfl := Option.some.inj (hip.symm.trans hsome)
      exact hheader
    · intro h
      have hheader := h.header _ hip
      exact ⟨h.tags, within_tunnel hheader.fragment6, hheader⟩

/-! ### The SIP branch -/

lemma within_recordKey (hheader : ip + 20 ≤ n)
    (hfrag : PcapSipDump.isFragment6 m ip → ip + 48 ≤ n) : (recordKey ip).Within n m := by
  simp only [recordKey, within_bind, within_andM, within_versionIs, within_be16, within_pure,
    within_isFragment6, value_isFragment6, within_ite, and_true]
  refine ⟨⟨by omega, fun _ => by omega⟩, ?_⟩
  split
  · rw [within_addrAddrId4]
    exact hheader
  · refine ⟨⟨by omega, fun _ => by omega⟩, ?_⟩
    split
    · rename_i h
      rw [within_addrAddrId6 ip (ipVersion_of_isFragment6 h)]
      exact hfrag h
    · trivial

/-- A byte that the terminator of the payload has not zeroed is the byte of the packet. -/
lemma u8_terminate {p : Packet} (h : u8 p.terminate.mem i ≠ 0) :
    u8 p.terminate.mem i = u8 p.mem i := by
  have hmem : p.terminate.mem = p.mem.set (min p.len.toNat p.caplen) 0 :=
    List.take_append_drop _ _
  rw [hmem] at h ⊢
  simp only [u8, List.getD_eq_getElem?_getD] at h ⊢
  by_cases hi : min p.len.toNat p.caplen = i
  · subst hi
    rw [List.getElem?_set_self'] at h
    rcases hbyte : p.mem[min p.len.toNat p.caplen]? with _ | c <;> rw [hbyte] at h <;>
      exact absurd rfl h
  · rw [List.getElem?_set_ne hi]

lemma isFragment6_of_terminate {p : Packet} (h : PcapSipDump.isFragment6 p.terminate.mem ip) :
    PcapSipDump.isFragment6 p.mem ip := by
  rw [isFragment6_iff] at h ⊢
  obtain ⟨hversion, hnexthdr⟩ := h
  have hne : u8 p.terminate.mem ip ≠ 0 := by
    intro h0
    rw [ipVersion, h0] at hversion
    exact absurd hversion (by decide)
  have hne' : u8 p.terminate.mem (ip + 6) ≠ 0 := by
    intro h0
    rw [nexthdr, h0] at hnexthdr
    exact absurd hnexthdr (by decide)
  rw [ipVersion, u8_terminate ip hne] at hversion
  rw [nexthdr, u8_terminate (ip + 6) hne'] at hnexthdr
  exact ⟨hversion, hnexthdr⟩

end Bounds

/-- The reads of the dispatch of a packet, and of the SIP branch for the fragment map, are reads
of captured bytes. -/
def ReadsCaptured (o : Options) (host : Host) (p : Packet) (s : State) : Prop :=
  (dispatch o s.world.ct p.caplen).eval p.bytes ≠ none ∧
    ∀ ip msg, branch o p s.world = .sip ip msg → (findOrAdd o host msg p.ts s).1.isSome →
      (recordKey ip).eval p.terminate.bytes ≠ none

end Dissector

open Dissector

/-- **The reads of the dissector** stay within the captured bytes if and only if the tags of the
frame, its IP header and its payload are captured as far as they are looked at. -/
theorem dissector_in_capture_iff (o : Options) (host : Host) (p : Packet) (s : State) :
    ReadsCaptured o host p s ↔ FrameCaptured o s.world p := by
  have hdispatch : (Dissector.dispatch o s.world.ct p.caplen).eval p.bytes ≠ none ↔
      FrameCaptured o s.world p :=
    eval_ne_none_iff.trans (within_dispatch o s.world p)
  rw [ReadsCaptured, hdispatch]
  refine and_iff_left_of_imp fun hframe ip msg hbranch _ => ?_
  obtain ⟨hlater, hip, hadm, -⟩ := of_branch_sip hbranch
  have hheader := hframe.header ip hip
  have hcaplen : p.terminate.bytes.length = p.caplen := by
    rw [Packet.terminate, List.length_take, List.length_set, Packet.mem, List.length_append,
      Packet.caplen]
    omega
  have hports := (hheader.payload ((laterFragment_eq_none_iff hip).mp hlater).1
    ((laterFragment_eq_none_iff hip).mp hlater).2 hadm).ports
  have hle := le_headerUdp p.mem ip
  rw [@eval_ne_none_iff _ _ p.terminate.beyond, hcaplen]
  refine within_recordKey ip (by split_ifs at hle <;> omega) fun hfrag => ?_
  have hfrag := isFragment6_of_terminate ip hfrag
  rw [PcapSipDump.headerUdp, if_pos hfrag,
    if_neg (ipVersion_ne_four (ipVersion_of_isFragment6 hfrag))] at hports
  omega

/-- The Ethernet link, with a file name that does not depend on the time. -/
def Options.ethernet : Options := { Options.raw with dlt := .en10mb }

/-- The Ethernet frame of a UDP datagram without payload between the SIP ports of 192.168.1.1 and
192.168.2.2. -/
def emptyDatagram : Packet :=
  Packet.captured 0 ([0x0c, 0x22, 0x22, 0x22, 0x22, 0x22, 0x0c, 0x11, 0x11, 0x11, 0x11, 0x11,
    0x08, 0] ++ ipv4Udp 0 0 [192, 168, 1, 1] [192, 168, 2, 2] 5060 5060 [])

/-- The SSRC of the datagram is read behind its last captured byte. -/
theorem dissector_in_capture_false :
    ¬∀ (o : Options) (host : Host) (p : Packet) (s : State), ReadsCaptured o host p s := by
  intro h
  have hreads := (h Options.ethernet Host.numbering emptyDatagram Options.ethernet.start).1
  exact hreads (by decide +kernel)

end PcapSipDump
