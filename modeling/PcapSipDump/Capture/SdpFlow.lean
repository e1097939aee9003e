import PcapSipDump.Capture.TaggedLines

/-!
# The flow of an SDP text

`get_ip_port_from_sdp` compares the value of `inet_addr` with -1 after a conversion to `long`, which
never holds where a `long` has 64 bits, and reads the port with `atoi` into 16 bits.  So it returns
what the lines say exactly when no port is read at all, or the text has a dotted quad and a port in
1..65535 where they are looked for (`sdp_flow_iff`).
-/

namespace PcapSipDump

open Lib.CString

variable {sdp : Bytes} {sdplen : ℕ}

/-! ### What the lines say -/

/-- The tag of an IPv4 address. -/
def connTag : Bytes := ascii "c=IN IP4 "

/-- The tag of an audio stream. -/
def audioTag : Bytes := ascii "m=audio "

/-- The tag of a fax stream. -/
def imageTag : Bytes := ascii "m=image "

lemma isEol_connTag : ∀ c ∈ connTag, isEol c = false := by
  simp [connTag, ascii, isEol]

lemma isEol_audioTag : ∀ c ∈ audioTag, isEol c = false := by
  simp [audioTag, ascii, isEol]

lemma isEol_imageTag : ∀ c ∈ imageTag, isEol c = false := by
  simp [imageTag, ascii, isEol]

/-- Four numbers separated by dots. -/
def dottedQuad (a : Bytes) : Bool :=
  (a.all fun c => isdigit c || c = 46) && (a.splitOnP (· = 46)).length = 4 &&
    (a.splitOnP (· = 46)).all (· ≠ [])

/-- `inet_addr` accepts the string. -/
def inetAccepts (s : Bytes) : Bool :=
  match inetParts 4 [] s with
  | some parts => parts.getLastD 0 < 256 ^ (5 - parts.length)
  | none => false

/-- The terminated lines of an SDP text. -/
def sdpLines (sdp : Bytes) (sdplen : ℕ) : List Bytes := (lines (buffer sdp sdplen)).dropLast

/-- The value of the first `c=IN IP4 ` line. -/
def connValue (sdp : Bytes) (sdplen : ℕ) : Option Bytes := taggedValue connTag (sdpLines sdp sdplen)

/-- The value of the `m=audio ` line or, when there is none, of the `m=image ` line. -/
def mediaValue (sdp : Bytes) (sdplen : ℕ) : Option Bytes :=
  (taggedValue audioTag (sdpLines sdp sdplen)).or (taggedValue imageTag (sdpLines sdp sdplen))

/-- The address is valid. -/
def ValidAddress (a : Bytes) : Prop := dottedQuad a ∧ inetAccepts a

/-- The value of a media line starts with a valid port. -/
def ValidPort (m : Bytes) : Prop := 1 ≤ leadingDigits m ∧ leadingDigits m ≤ 65535

instance (a : Bytes) : Decidable (ValidAddress a) := inferInstanceAs (Decidable (_ ∧ _))

instance (m : Bytes) : Decidable (ValidPort m) := inferInstanceAs (Decidable (_ ∧ _))

/-- The address and the port that an SDP text describes. -/
def sdpFlow (sdp : Bytes) (sdplen : ℕ) : Option (UInt32 × UInt16) :=
  match connValue sdp sdplen, mediaValue sdp sdplen with
  | some a, some m =>
      if ValidAddress a ∧ ValidPort m then some (inetAddr a, UInt16.ofNat (leadingDigits m))
      else none
  | _, _ => none

/-- Two elements have the same flows. -/
def SameFlows (e e' : CalltableElement) : Prop := e'.ip = e.ip ∧ e'.port = e.port ∧ e'.ipN = e.ipN

/-- `get_ip_port_from_sdp` returns exactly the flow that the text describes, and when there is none
`parse_sdp` leaves the flows of every element as they are. -/
def ReadsFlow (sdp : Bytes) (sdplen : ℕ) : Prop :=
  getIpPortFromSdp sdp sdplen = sdpFlow sdp sdplen ∧
    (sdpFlow sdp sdplen = none → ∀ verbosity optT38only e,
      SameFlows e ((parseSdp verbosity optT38only sdp sdplen).foldl (fun e w => w.apply e) e))

/-- `inet_addr` returns `INADDR_NONE` for a string that it does not accept. -/
lemma inetAddr_of_rejected {s : Bytes} (h : inetAccepts s = false) : inetAddr s = 0xffffffff := by
  unfold inetAccepts at h
  unfold inetAddr
  rcases hparts : inetParts 4 [] s with _ | parts
  · rfl
  · simp only [hparts, decide_eq_false_iff_not] at h
    exact if_neg h

lemma sdpFlow_eq_some_iff {r : UInt32 × UInt16} : sdpFlow sdp sdplen = some r ↔
    ∃ a m, connValue sdp sdplen = some a ∧ mediaValue sdp sdplen = some m ∧
      (ValidAddress a ∧ ValidPort m) ∧ r = (inetAddr a, UInt16.ofNat (leadingDigits m)) := by
  unfold sdpFlow
  rcases connValue sdp sdplen with _ | a
  · simp
  · rcases mediaValue sdp sdplen with _ | m
    · simp
    · by_cases h : ValidAddress a ∧ ValidPort m
      · simp [h, eq_comm]
      · simp [h]

/-! ### What the function reads -/

/-- The text at the first value of an `m=audio ` line or an `m=image ` line that is not empty. -/
def mediaText (sdp : Bytes) (sdplen : ℕ) : Bytes :=
  let media := ((gettag sdp sdplen audioTag).filter fun v => v.2 ≠ 0) <|>
    ((gettag sdp sdplen imageTag).filter fun v => v.2 ≠ 0)
  match media with
  | some v => sdp.drop v.1
  | none => []

lemma port_eq_zero_iff (s : Bytes) : UInt16.ofInt (atoi s) = 0 ↔ (65536 : ℤ) ∣ atoi s := by
  rw [← UInt16.toNat_inj, UInt16.ofInt, UInt16.toNat_ofNat', UInt16.toNat_zero]
  omega

/-- An empty value is none. -/
lemma filter_orElse (audio image : Option (ℕ × ℕ)) :
    ((audio.filter fun v => decide (v.2 ≠ 0)) <|> image).filter (fun v => decide (v.2 ≠ 0)) =
      ((audio.filter fun v => decide (v.2 ≠ 0)) <|> image.filter fun v => decide (v.2 ≠ 0)) := by
  rcases audio with _ | v
  · rfl
  · by_cases hv : v.2 = 0
    · simp [Option.filter_some, hv]
    · simp [Option.filter_some, hv]

/-- **What `get_ip_port_from_sdp` returns.** -/
lemma getIpPortFromSdp_eq (sdp : Bytes) (sdplen : ℕ) :
    getIpPortFromSdp sdp sdplen =
      if (65536 : ℤ) ∣ atoi (mediaText sdp sdplen) then none
      else some (inetAddr (cstr (((connValue sdp sdplen).getD []).take 19)),
        UInt16.ofInt (atoi (mediaText sdp sdplen))) := by
  have hconn : (gettag sdp sdplen (ascii "c=IN IP4 ")).map (slice sdp) = connValue sdp sdplen :=
    map_slice_gettag (by decide) isEol_connTag sdp sdplen
  simp only [← port_eq_zero_iff]
  unfold getIpPortFromSdp mediaText audioTag imageTag
  simp only [hconn]
  rw [filter_orElse]
  generalize (((gettag sdp sdplen (ascii "m=audio ")).filter fun v => decide (v.2 ≠ 0)) <|>
    ((gettag sdp sdplen (ascii "m=image ")).filter fun v => decide (v.2 ≠ 0))) = media
  rcases media with _ | v
  · have hempty : UInt16.ofInt (atoi []) = 0 := by decide
    simp only [hempty, if_true]
  · simp only

lemma ne_zero_of_mem_dottedQuad {a : Bytes} (h : dottedQuad a) {c : UInt8} (hc : c ∈ a) :
    c ≠ 0 := by
  rw [dottedQuad, Bool.and_eq_true, Bool.and_eq_true, List.all_eq_true] at h
  rintro rfl
  exact absurd (h.1.1 0 hc) (by decide)

lemma isdigit_of_isEol {c : UInt8} (h : isEol c) : isdigit c = false := by
  rw [isEol, Bool.or_eq_true, decide_eq_true_eq, decide_eq_true_eq] at h
  rcases h with rfl | rfl <;> decide

/-- A number at the start of a value is read up to its end. -/
lemma atoi_of_gettag {tag : Bytes} (hne : tag ≠ []) (heol : ∀ c ∈ tag, isEol c = false)
    {v : ℕ × ℕ} (hv : gettag sdp sdplen tag = some v) (hdigit : isdigit ((slice sdp v).headD 0))
    (hle : leadingDigits (slice sdp v) ≤ 65535) :
    v.2 ≠ 0 ∧ atoi (sdp.drop v.1) = leadingDigits (slice sdp v) := by
  constructor
  · intro hzero
    rw [slice, hzero, List.take_zero] at hdigit
    exact absurd hdigit (by decide)
  · obtain ⟨c, rest, hdrop, hc⟩ := drop_of_gettag hne heol hv
    have hdigits : leadingDigits (slice sdp v ++ c :: rest) = leadingDigits (slice sdp v) :=
      leadingDigits_line (isdigit_of_isEol hc) _ _
    have hhead : isdigit ((slice sdp v ++ c :: rest).headD 0) := by
      rcases hslice : slice sdp v with _ | ⟨x, xs⟩
      · rw [hslice] at hdigit
        exact absurd hdigit (by decide)
      · rwa [hslice] at hdigit
    rw [hdrop, atoi_of_isdigit hhead (by omega), hdigits]

/-- The number in the value of the media line is where the port is read. -/
lemma atoi_mediaText {m : Bytes} (hm : mediaValue sdp sdplen = some m)
    (hdigit : isdigit (m.headD 0)) (hle : leadingDigits m ≤ 65535) :
    atoi (mediaText sdp sdplen) = leadingDigits m := by
  have haudio : (gettag sdp sdplen audioTag).map (slice sdp) =
      taggedValue audioTag (sdpLines sdp sdplen) := map_slice_gettag (by decide) isEol_audioTag _ _
  have himage : (gettag sdp sdplen imageTag).map (slice sdp) =
      taggedValue imageTag (sdpLines sdp sdplen) := map_slice_gettag (by decide) isEol_imageTag _ _
  rw [mediaValue, ← haudio, ← himage] at hm
  unfold mediaText
  rcases hv : gettag sdp sdplen audioTag with _ | v
  · rw [hv, Option.map_none, Option.none_or] at hm
    obtain ⟨v, hv', rfl⟩ := Option.map_eq_some_iff.mp hm
    obtain ⟨hne, hatoi⟩ := atoi_of_gettag (by decide) isEol_imageTag hv' hdigit hle
    simp [hv', Option.filter_some, hne, hatoi]
  · rw [hv, Option.map_some, Option.some_or] at hm
    obtain rfl := Option.some.inj hm
    obtain ⟨hne, hatoi⟩ := atoi_of_gettag (by decide) isEol_audioTag hv hdigit hle
    simp [Option.filter_some, hne, hatoi]

lemma ValidPort.isdigit {m : Bytes} (h : ValidPort m) : isdigit (m.headD 0) :=
  isdigit_of_leadingDigits_pos h.1

/-- The text has no port at the place where one is read, or a valid address, which is not cut, and a
valid port. -/
def FlowReadable (sdp : Bytes) (sdplen : ℕ) : Prop :=
  (65536 : ℤ) ∣ atoi (mediaText sdp sdplen) ∨
    ∃ a m, connValue sdp sdplen = some a ∧ mediaValue sdp sdplen = some m ∧
      (ValidAddress a ∧ ValidPort m) ∧ inetAddr (a.take 19) = inetAddr a

lemma getIpPortFromSdp_of_valid {a m : Bytes} (ha : connValue sdp sdplen = some a)
    (hm : mediaValue sdp sdplen = some m) (haddr : ValidAddress a) (hport : ValidPort m) :
    getIpPortFromSdp sdp sdplen =
      some (inetAddr (a.take 19), UInt16.ofNat (leadingDigits m)) := by
  have hatoi := atoi_mediaText hm hport.isdigit hport.2
  obtain ⟨hlow, hhigh⟩ := hport
  have hnul : cstr (a.take 19) = a.take 19 :=
    cstr_eq_self fun c hc => ne_zero_of_mem_dottedQuad haddr.1 (List.mem_of_mem_take hc)
  rw [getIpPortFromSdp_eq, if_neg (by rw [hatoi]; omega), hatoi, ha, Option.getD_some, hnul,
    UInt16.ofInt]
  congr 3
  omega

/-- `parse_sdp` does not touch the flows when no address is read. -/
lemma sameFlows_parseSdp (h : getIpPortFromSdp sdp sdplen = none) (verbosity : ℤ)
    (optT38only : Bool) (e : CalltableElement) :
    SameFlows e ((parseSdp verbosity optT38only sdp sdplen).foldl (fun e w => w.apply e) e) := by
  have hattributes : SameFlows e
      ((sdpAttributes optT38only sdp sdplen).foldl (fun e w => w.apply e) e) := by
    unfold sdpAttributes
    split <;> split <;> exact ⟨rfl, rfl, rfl⟩
  rw [parseSdp_eq, h]
  dsimp only
  split
  · exact ⟨rfl, rfl, rfl⟩
  · exact hattributes

/-- **The flow of an SDP text** is read exactly if no port is read, or the text has a valid address,
which is not cut, and a valid port. -/
theorem sdp_flow_iff (sdp : Bytes) (sdplen : ℕ) :
    ReadsFlow sdp sdplen ↔ FlowReadable sdp sdplen := by
  constructor
  · rintro ⟨hflow, -⟩
    by_cases hport : (65536 : ℤ) ∣ atoi (mediaText sdp sdplen)
    · exact Or.inl hport
    · right
      have hget := getIpPortFromSdp_eq sdp sdplen
      rw [if_neg hport] at hget
      obtain ⟨a, m, ha, hm, hvalid, hr⟩ := sdpFlow_eq_some_iff.mp (hflow.symm.trans hget)
      refine ⟨a, m, ha, hm, hvalid, ?_⟩
      rw [getIpPortFromSdp_of_valid ha hm hvalid.1 hvalid.2] at hget
      rw [← (Prod.mk.inj hr).1, (Prod.mk.inj (Option.some.inj hget)).1]
  · intro h
    have hflow : getIpPortFromSdp sdp sdplen = sdpFlow sdp sdplen := by
      rcases h with hport | ⟨a, m, ha, hm, hvalid, htake⟩
      · rcases hsome : sdpFlow sdp sdplen with _ | r
        · rw [getIpPortFromSdp_eq, if_pos hport]
        · -- a valid port is not zero
          obtain ⟨a, m, ha, hm, ⟨-, hvalid⟩, -⟩ := sdpFlow_eq_some_iff.mp hsome
          obtain ⟨hlow, hhigh⟩ := id hvalid
          rw [atoi_mediaText hm hvalid.isdigit hhigh] at hport
          omega
      · rw [getIpPortFromSdp_of_valid ha hm hvalid.1 hvalid.2, htake]
        exact (sdpFlow_eq_some_iff.mpr ⟨a, m, ha, hm, hvalid, rfl⟩).symm
    exact ⟨hflow, fun hnone => sameFlows_parseSdp (hflow.trans hnone)⟩

/-- A call with an IPv6 address. -/
def ipv6Sdp : Bytes := ascii "c=IN IP6 ::1\r\nm=audio 4000 RTP/AVP 0\r\n"

/-- The media of a call without an IPv4 address are looked for at 255.255.255.255. -/
theorem sdp_flow_false : ¬∀ sdp sdplen, ReadsFlow sdp sdplen := by
  intro h
  exact absurd (h ipv6Sdp 38).1 (by decide +kernel)

end PcapSipDump
