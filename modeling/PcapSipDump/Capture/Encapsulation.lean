import PcapSipDump.Capture.Packet

/-!
# The Ethernet encapsulations of IP

What stands between the addresses of an Ethernet frame and its IP packet is a sequence of 16-bit
words.  `ethernet_get_header_ip` tests these words by their index, and it finds the packet behind
them in all but some of the tagged frames.
-/

namespace PcapSipDump

open Lib.CString

/-! ### Frames -/

/-- The kinds of packets. -/
inductive IpKind where
  | v4
  | v6
deriving DecidableEq

/-- The Ethernet type of a packet. -/
def IpKind.ethertype : IpKind → UInt16
  | .v4 => 0x0800
  | .v6 => 0x86dd

/-- The PPP protocol of a packet. -/
def IpKind.pppProtocol : IpKind → UInt16
  | .v4 => 0x0021
  | .v6 => 0x0057

/-- The identifiers of a VLAN tag. -/
inductive Tpid where
  | x8100
  | x9100
  | x88a8
deriving DecidableEq

/-- The number of an identifier. -/
def Tpid.word : Tpid → UInt16
  | .x8100 => 0x8100
  | .x9100 => 0x9100
  | .x88a8 => 0x88a8

/-- How a packet is put into a frame: the identifiers and the values of the tags, the session and
the length of PPPoE. -/
inductive Encapsulation where
  | untagged
  | tagged (tpid : Tpid) (tag : UInt16)
  | doubleTagged (outer : Tpid) (outerTag : UInt16) (inner : Tpid) (innerTag : UInt16)
  | pppoe (sessid len : UInt16)
  | taggedPppoe (tag sessid len : UInt16)
deriving DecidableEq

namespace Encapsulation

/-- The words in front of a packet. -/
def words (kind : IpKind) : Encapsulation → List UInt16
  | untagged => [kind.ethertype]
  | tagged tpid tag => [tpid.word, tag, kind.ethertype]
  | doubleTagged outer outerTag inner innerTag =>
      [outer.word, outerTag, inner.word, innerTag, kind.ethertype]
  | pppoe sessid len => [0x8864, 0x1100, sessid, len, kind.pppProtocol]
  | taggedPppoe tag sessid len => [0x8100, tag, 0x8864, 0x1100, sessid, len, kind.pppProtocol]

/-- The frame with the addresses `macs` for a packet, and whatever lies behind it. -/
def frame (macs : Buf 12) (kind : IpKind) (packet : Bytes) (e : Encapsulation) : Bytes :=
  macs.toBytes ++ ((e.words kind).flatMap field16 ++ packet)

/-- The offset of the packet in its frame. -/
def offset (kind : IpKind) (e : Encapsulation) : ℕ := 12 + 2 * (e.words kind).length

/-- The encapsulations that are recognised: a single tag must be `0x8100`, and so must be the inner
one of two, which must have an IPv4 packet behind it. -/
def IsRecognised (kind : IpKind) : Encapsulation → Prop
  | tagged tpid _ => tpid = .x8100
  | doubleTagged _ _ inner _ => inner = .x8100 ∧ kind = .v4
  | _ => True

end Encapsulation

/-! ### The words of a frame -/

lemma be16_field16_append (n : UInt16) (rest : Bytes) : be16 (field16 n ++ rest) 0 = n := by
  show (n / 256).toUInt8.toUInt16 * 256 + n.toUInt8.toUInt16 = n
  have hlt := n.toNat_lt
  rw [← UInt16.toNat_inj]
  simp only [UInt16.toNat_add, UInt16.toNat_mul, UInt8.toNat_toUInt16, UInt16.toNat_toUInt8,
    UInt16.toNat_div, UInt16.reduceToNat]
  omega

lemma be16_append_right {a : Bytes} {n : ℕ} (hn : a.length = n) (b : Bytes) (i : ℕ) :
    be16 (a ++ b) (n + i) = be16 b i := by
  have hget : ∀ j, u8 (a ++ b) (n + j) = u8 b j := by
    intro j
    rw [u8, u8, List.getD_eq_getElem?_getD, List.getD_eq_getElem?_getD,
      List.getElem?_append_right (by omega), hn, Nat.add_sub_cancel_left]
  rw [be16, be16, hget, Nat.add_assoc, hget]

lemma be16_flatMap_field16 {ws : List UInt16} {i : ℕ} (hi : i < ws.length) (rest : Bytes) :
    be16 (ws.flatMap field16 ++ rest) (2 * i) = ws[i] := by
  induction ws generalizing i with
  | nil => exact absurd hi (Nat.not_lt_zero _)
  | cons w ws ih =>
    rw [List.flatMap_cons, List.append_assoc]
    cases i with
    | zero => exact be16_field16_append w _
    | succ i =>
      rw [Nat.mul_succ, Nat.add_comm, be16_append_right (show (field16 w).length = 2 from rfl),
        ih (Nat.lt_of_succ_lt_succ hi)]
      rfl

section Frame

variable (macs : Buf 12) (kind : IpKind) (packet : Bytes)

/-- The words that are tested, counted from the type of the frame. -/
lemma be16_frame (e : Encapsulation) {i : ℕ} (hi : i < (e.words kind).length) :
    be16 (e.frame macs kind packet) (12 + 2 * i) = (e.words kind)[i] := by
  rw [Encapsulation.frame, be16_append_right (Buf.length_toBytes macs), be16_flatMap_field16 hi]

/-- A packet that is not tagged. -/
lemma untagged_header : ethernetGetHeaderIp (Encapsulation.untagged.frame macs kind packet) =
    some (Encapsulation.untagged.offset kind) := by
  have h12 : be16 (Encapsulation.untagged.frame macs kind packet) 12 = kind.ethertype :=
    be16_frame macs kind packet .untagged (i := 0) (Nat.succ_pos _)
  have hip : kind.ethertype = 0x0800 ∨ kind.ethertype = 0x86dd := by cases kind <;> decide
  simp only [ethernetGetHeaderIp, Nat.reduceMul, Nat.reduceAdd, h12, if_pos hip]
  rfl

/-- The test of the inner type finds a packet behind a tag `0x8100` only. -/
lemma tagged_header_iff (tpid : Tpid) (tag : UInt16) :
    ethernetGetHeaderIp ((Encapsulation.tagged tpid tag).frame macs kind packet) =
      some ((Encapsulation.tagged tpid tag).offset kind) ↔ tpid = .x8100 := by
  have h12 : be16 ((Encapsulation.tagged tpid tag).frame macs kind packet) 12 = tpid.word :=
    be16_frame macs kind packet (.tagged tpid tag) (i := 0) (Nat.succ_pos _)
  have h16 : be16 ((Encapsulation.tagged tpid tag).frame macs kind packet) 16 = kind.ethertype :=
    be16_frame macs kind packet (.tagged tpid tag) (i := 2) (Nat.lt_succ_self _)
  simp only [ethernetGetHeaderIp, Nat.reduceMul, Nat.reduceAdd, h12, h16]
  cases tpid with
  | x8100 => cases kind <;> exact iff_of_true rfl rfl
  | x9100 => cases kind <;> simp [Tpid.word, IpKind.ethertype]
  | x88a8 => cases kind <;> simp [Tpid.word, IpKind.ethertype]

/-- Behind two tags the test is for an inner tag `0x8100` and for IPv4. -/
lemma doubleTagged_header_iff (outer : Tpid) (outerTag : UInt16) (inner : Tpid)
    (innerTag : UInt16) :
    ethernetGetHeaderIp
        ((Encapsulation.doubleTagged outer outerTag inner innerTag).frame macs kind packet) =
      some ((Encapsulation.doubleTagged outer outerTag inner innerTag).offset kind) ↔
      inner = .x8100 ∧ kind = .v4 := by
  set e := Encapsulation.doubleTagged outer outerTag inner innerTag with he
  have h12 : be16 (e.frame macs kind packet) 12 = outer.word :=
    be16_frame macs kind packet e (i := 0) (Nat.succ_pos _)
  have h16 : be16 (e.frame macs kind packet) 16 = inner.word :=
    be16_frame macs kind packet e (i := 2) (show 2 < 5 by decide)
  have h20 : be16 (e.frame macs kind packet) 20 = kind.ethertype :=
    be16_frame macs kind packet e (i := 4) (show 4 < 5 by decide)
  simp only [ethernetGetHeaderIp, Nat.reduceMul, Nat.reduceAdd, h12, h16, h20]
  have hoffset : e.offset kind = 22 := rfl
  cases inner with
  | x8100 => cases outer <;> cases kind <;> simp [Tpid.word, IpKind.ethertype, hoffset]
  | x9100 => cases outer <;> cases kind <;> simp [Tpid.word, IpKind.ethertype]
  | x88a8 => cases outer <;> cases kind <;> simp [Tpid.word, IpKind.ethertype]

/-- PPPoE with any session. -/
lemma pppoe_header (sessid len : UInt16) :
    ethernetGetHeaderIp ((Encapsulation.pppoe sessid len).frame macs kind packet) =
      some ((Encapsulation.pppoe sessid len).offset kind) := by
  set e := Encapsulation.pppoe sessid len with he
  have h12 : be16 (e.frame macs kind packet) 12 = 0x8864 :=
    be16_frame macs kind packet e (i := 0) (Nat.succ_pos _)
  have h14 : be16 (e.frame macs kind packet) 14 = 0x1100 :=
    be16_frame macs kind packet e (i := 1) (show 1 < 5 by decide)
  have h20 : be16 (e.frame macs kind packet) 20 = kind.pppProtocol :=
    be16_frame macs kind packet e (i := 4) (show 4 < 5 by decide)
  simp only [ethernetGetHeaderIp, pppoeGetHeaderIp, Nat.reduceMul, Nat.reduceAdd, Nat.zero_add,
    h12, h14, h20]
  cases kind <;> rfl

/-- PPPoE behind a tag: the recursive call counts from the inner type. -/
lemma taggedPppoe_header (tag sessid len : UInt16) :
    ethernetGetHeaderIp ((Encapsulation.taggedPppoe tag sessid len).frame macs kind packet) =
      some ((Encapsulation.taggedPppoe tag sessid len).offset kind) := by
  set e := Encapsulation.taggedPppoe tag sessid len with he
  have h12 : be16 (e.frame macs kind packet) 12 = 0x8100 :=
    be16_frame macs kind packet e (i := 0) (Nat.succ_pos _)
  have h16 : be16 (e.frame macs kind packet) 16 = 0x8864 :=
    be16_frame macs kind packet e (i := 2) (show 2 < 7 by decide)
  have h18 : be16 (e.frame macs kind packet) 18 = 0x1100 :=
    be16_frame macs kind packet e (i := 3) (show 3 < 7 by decide)
  have h24 : be16 (e.frame macs kind packet) 24 = kind.pppProtocol :=
    be16_frame macs kind packet e (i := 6) (show 6 < 7 by decide)
  simp only [ethernetGetHeaderIp, pppoeGetHeaderIp, Nat.reduceMul, Nat.reduceAdd, h12, h16, h18,
    h24]
  cases kind <;> rfl

end Frame

/-! ### What stands in front of an offset -/

/-- The field in front of the offset is an Ethernet type of IPv4 or IPv6, or the PPP protocol of
one of them behind the header of a PPPoE session. -/
def Announces (m : Bytes) (off : ℕ) : Prop :=
  2 ≤ off ∧ (be16 m (off - 2) = 0x0800 ∨ be16 m (off - 2) = 0x86dd ∨
    be16 m (off - 10) = 0x8864 ∧ be16 m (off - 8) = 0x1100 ∧
      (be16 m (off - 2) = 0x0021 ∨ be16 m (off - 2) = 0x0057))

lemma announces_of_pppoe {m : Bytes} {base off : ℕ} (htype : be16 m (base + 12) = 0x8864)
    (h : pppoeGetHeaderIp m base = some off) : Announces m off := by
  simp only [pppoeGetHeaderIp] at h
  split_ifs at h with hsession
  obtain rfl := Option.some.inj h
  exact ⟨Nat.le_add_left _ _, Or.inr (Or.inr ⟨htype, hsession.1, hsession.2⟩)⟩

/-- Every offset that is returned is announced, whatever the frame is. -/
lemma announces_of_ethernetGetHeaderIp {m : Bytes} {off : ℕ}
    (h : ethernetGetHeaderIp m = some off) : Announces m off := by
  simp only [ethernetGetHeaderIp, Nat.reduceMul, Nat.reduceAdd] at h
  split_ifs at h with hip hvlan hinner hpppoe hdouble hqinq hdouble' hpppoe'
  · obtain rfl := Option.some.inj h
    exact ⟨by decide, hip.imp_right Or.inl⟩
  · obtain rfl := Option.some.inj h
    exact ⟨by decide, hinner.imp_right Or.inl⟩
  · exact announces_of_pppoe hpppoe h
  · obtain rfl := Option.some.inj h
    exact ⟨by decide, Or.inl hdouble.2⟩
  · obtain rfl := Option.some.inj h
    exact ⟨by decide, Or.inl hdouble'.2⟩
  · exact announces_of_pppoe hpppoe' h

/-- **Link-layer decoding.**  For every IPv4 or IPv6 packet and every encapsulation of it,
`ethernet_get_header_ip` returns the offset of the packet if and only if the encapsulation is one of
those that are recognised.  Whatever the frame is, a returned offset is announced as IP. -/
theorem ethernet_get_header_ip_iff (macs : Buf 12) (kind : IpKind) (packet : Bytes)
    (e : Encapsulation) :
    (ethernetGetHeaderIp (e.frame macs kind packet) = some (e.offset kind) ↔
        e.IsRecognised kind) ∧
      ∀ m off, ethernetGetHeaderIp m = some off → Announces m off := by
  refine ⟨?_, fun m off h => announces_of_ethernetGetHeaderIp h⟩
  cases e with
  | untagged => exact iff_of_true (untagged_header macs kind packet) trivial
  | tagged tpid tag => exact tagged_header_iff macs kind packet tpid tag
  | doubleTagged outer outerTag inner innerTag =>
    exact doubleTagged_header_iff macs kind packet outer outerTag inner innerTag
  | pppoe sessid len => exact iff_of_true (pppoe_header macs kind packet sessid len) trivial
  | taggedPppoe tag sessid len =>
    exact iff_of_true (taggedPppoe_header macs kind packet tag sessid len) trivial

/-- An IPv6 packet behind an 802.1ad tag and an 802.1Q tag is not found. -/
theorem ethernet_get_header_ip_false :
    ¬((∀ (macs : Buf 12) (kind : IpKind) (packet : Bytes) (e : Encapsulation),
        ethernetGetHeaderIp (e.frame macs kind packet) = some (e.offset kind)) ∧
      ∀ m off, ethernetGetHeaderIp m = some off → Announces m off) := by
  rintro ⟨h, -⟩
  have hv6 := h (fun _ => 0) .v6 (0x60 :: List.replicate 39 0) (.doubleTagged .x88a8 1 .x8100 2)
  exact absurd hv6 (by decide +kernel)

end PcapSipDump
