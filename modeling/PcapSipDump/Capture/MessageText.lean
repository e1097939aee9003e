import PcapSipDump.Capture.Archive
import PcapSipDump.Capture.ContentType
import PcapSipDump.Capture.SdpFlow

/-!
# The text of a message

The capture loop writes a NUL behind the payload of a SIP message before it reads the message.  So
what is read depends on the text of the payload alone, whatever lies behind it in memory
(`readSip_of_carries`), but for `rtpmap_event`: `sdp_get_rtpmap_event` may compare bytes behind the
NUL.
-/

namespace PcapSipDump

open Lib Lib.CString

variable {o : Options} {p : Packet} {data : ℕ} {text : Bytes}

/-! ### A text and what follows its NUL -/

section Terminated

variable {s z : Bytes}

lemma takeWhile_behind {f : UInt8 → Bool} (hf : f 0 = false) (hz : z.headD 0 = 0) (s : Bytes) :
    (s ++ z).takeWhile f = s.takeWhile f := by
  cases z with
  | nil => rw [List.append_nil]
  | cons c z =>
    obtain rfl : c = 0 := hz
    exact takeWhile_append_cons s z hf

lemma cstr_behind (hz : z.headD 0 = 0) (s : Bytes) : cstr (s ++ z) = cstr s :=
  takeWhile_behind (by simp) hz s

lemma leadingDigits_behind (hz : z.headD 0 = 0) (s : Bytes) :
    leadingDigits (s ++ z) = leadingDigits s := by
  rw [leadingDigits, leadingDigits, takeWhile_behind (by decide) hz]

lemma atol_behind (hz : z.headD 0 = 0) (s : Bytes) : atol (s ++ z) = atol s := by
  induction s with
  | nil =>
    cases z with
    | nil => rfl
    | cons c z =>
      obtain rfl : c = 0 := hz
      rfl
  | cons c s ih =>
    by_cases hspace : isspace c
    · rw [atol, atol] at ih ⊢
      rw [List.cons_append, List.dropWhile_cons_of_pos hspace, List.dropWhile_cons_of_pos hspace]
      exact ih
    · rw [atol, atol, List.cons_append, List.dropWhile_cons_of_neg hspace,
        List.dropWhile_cons_of_neg hspace]
      split
      · rename_i t heq
        obtain ⟨rfl, rfl⟩ := List.cons.inj heq
        simp only [leadingDigits_behind hz]
      · rename_i t heq
        obtain ⟨rfl, rfl⟩ := List.cons.inj heq
        simp only [leadingDigits_behind hz]
      · rename_i h45 h43
        rw [← List.cons_append, leadingDigits_behind hz]
        split
        · rename_i t heq
          obtain ⟨rfl, rfl⟩ := List.cons.inj heq
          exact absurd rfl (h45 (s ++ z))
        · rename_i t heq
          obtain ⟨rfl, rfl⟩ := List.cons.inj heq
          exact absurd rfl (h43 (s ++ z))
        · rfl

/-- The first blank line is in the text, if it is found at all. -/
lemma strstr_behind (hz : z.headD 0 = 0) (s needle : Bytes) :
    strstr (s ++ z) needle = strstr s needle ∧ ∀ k, strstr s needle = some k → k ≤ s.length := by
  refine ⟨by rw [strstr, strstr, cstr_behind hz], fun k hk => ?_⟩
  have hcstr : (cstr s).length ≤ s.length := (List.takeWhile_prefix _).length_le
  refine le_trans ?_ hcstr
  by_contra hlt
  obtain ⟨hat, hbefore⟩ := memmem_eq_some hk
  refine hbefore (cstr s).length (not_le.mp hlt) ?_
  rwa [List.drop_of_length_le (not_le.mp hlt).le, ← List.drop_length] at hat

lemma buffer_behind (s z : Bytes) : buffer (s ++ z) s.length = buffer s s.length := by
  have hlen : s.length ≤ (s ++ z).length := by
    rw [List.length_append]
    exact Nat.le_add_right _ _
  rw [buffer_of_le hlen, buffer_of_le le_rfl, List.take_left, List.take_length]

lemma gettag_behind (s z tag : Bytes) : gettag (s ++ z) s.length tag = gettag s s.length tag := by
  rw [gettag, gettag, buffer_behind]

lemma mediaText_behind (hz : z.headD 0 = 0) (s : Bytes) :
    atoi (mediaText (s ++ z) s.length) = atoi (mediaText s s.length) := by
  have hin : ∀ {tag : Bytes} {v : ℕ × ℕ}, tag ≠ [] → (∀ c ∈ tag, isEol c = false) →
      gettag s s.length tag = some v → atoi ((s ++ z).drop v.1) = atoi (s.drop v.1) := by
    intro tag v hne heol hv
    have hlt := (value_of_gettag hne heol hv).1.trans_le (length_buffer_le s s.length)
    rw [List.drop_append_of_le_length (by omega), atoi, atol_behind hz, atoi]
  unfold mediaText
  rw [gettag_behind, gettag_behind]
  dsimp only
  split
  · rename_i v hmedia
    rw [Option.orElse_eq_orElse, Option.orElse_eq_or, Option.or_eq_some_iff,
      Option.filter_eq_some_iff, Option.filter_eq_some_iff] at hmedia
    rcases hmedia with ⟨haudio, -⟩ | ⟨-, himage, -⟩
    · exact hin (by decide) isEol_audioTag haudio
    · exact hin (by decide) isEol_imageTag himage
  · rfl

lemma getIpPortFromSdp_behind (hz : z.headD 0 = 0) (s : Bytes) :
    getIpPortFromSdp (s ++ z) s.length = getIpPortFromSdp s s.length := by
  rw [getIpPortFromSdp_eq, getIpPortFromSdp_eq, mediaText_behind hz, connValue, connValue, sdpLines,
    sdpLines, buffer_behind]

end Terminated

/-! ### The values in a payload -/

/-- The tags that the SIP branch looks for. -/
def sipTags : List Bytes :=
  [ascii "Call-ID:", ascii "i:", ascii "From:", ascii "f:", ascii "To:", ascii "t:",
    ascii "Content-Type:", ascii "c:"]

lemma sipTags_plain : ∀ tag ∈ sipTags, tag ≠ [] ∧ ∀ c ∈ tag, isEol c = false := by
  decide +kernel

/-- The values of the tags in a payload of less than 2^31 bytes. -/
lemma gettag_of_carries (h : p.Carries data text) (hlt : text.length < 2 ^ 31)
    {tag : Bytes} (htag : tag ∈ sipTags) :
    (gettag (p.mem.drop data) (dataLen p data) tag).map (slice (p.mem.drop data)) =
        textValue text tag ∧
      (gettag (p.mem.drop data) (intLen (dataLen p data)) tag).map (slice (p.mem.drop data)) =
        textValue text tag := by
  obtain ⟨hne, heol⟩ := sipTags_plain tag htag
  obtain ⟨htext, hnames⟩ := buffer_of_carries h
  rw [map_slice_gettag hne heol, map_slice_gettag hne heol, htext, hnames hlt]
  exact ⟨rfl, rfl⟩

/-- The value of a header in its full or its compact form. -/
lemma getHeader_of_carries (h : p.Carries data text) (hlt : text.length < 2 ^ 31)
    {name compact : Bytes} (hname : name ∈ sipTags) (hcompact : compact ∈ sipTags) :
    (getHeader (p.mem.drop data) (dataLen p data) name compact).map (slice (p.mem.drop data)) =
      (textValue text name).or (textValue text compact) := by
  rw [← (gettag_of_carries h hlt hname).1, ← (gettag_of_carries h hlt hcompact).1, getHeader]
  rcases gettag (p.mem.drop data) (dataLen p data) name with _ | v <;> rfl

lemma sipPeername_of_carries (h : p.Carries data text) (hlt : text.length < 2 ^ 31)
    {name compact : Bytes} (hname : name ∈ sipTags) (hcompact : compact ∈ sipTags) (n : ℕ) :
    sipPeername n (p.mem.drop data) (dataLen p data) name compact =
      nameFrom n (textValue text name) (textValue text compact) :=
  sipPeername_of_values (gettag_of_carries h hlt hname).2 (gettag_of_carries h hlt hcompact).2

/-! ### The message in a packet -/

/-- The messages are the same but for the payload type of events. -/
structure SipMessage.Alike (msg msg' : SipMessage) : Prop where
  method : msg'.method = msg.method
  callId : msg'.callId = msg.callId
  caller : msg'.caller = msg.caller
  called : msg'.called = msg.called
  body : msg'.body.filter (fun e => e.event.isNone) = msg.body.filter fun e => e.event.isNone

namespace SipMessage.Alike

variable {msg msg' msg'' : SipMessage}

lemma symm (h : msg.Alike msg') : msg'.Alike msg :=
  ⟨h.method.symm, h.callId.symm, h.caller.symm, h.called.symm, h.body.symm⟩

lemma trans (h : msg.Alike msg') (h' : msg'.Alike msg'') : msg.Alike msg'' :=
  ⟨h'.method.trans h.method, h'.callId.trans h.callId, h'.caller.trans h.caller,
    h'.called.trans h.called, h'.body.trans h.body⟩

end SipMessage.Alike

/-- Behind the text only the payload type of events may be read. -/
lemma filter_parseSdp_behind {z : Bytes} (hz : z.headD 0 = 0) (verbosity : ℤ) (optT38only : Bool)
    (s : Bytes) :
    (parseSdp verbosity optT38only (s ++ z) s.length).filter (fun e => e.event.isNone) =
      (parseSdp verbosity optT38only s s.length).filter fun e => e.event.isNone := by
  have hattributes : ∀ sdp : Bytes, (sdpAttributes optT38only sdp s.length).filter
      (fun e => e.event.isNone) =
        if optT38only ∧ (memmem (sdp.take s.length) (ascii "udptl t38")).isSome then
          [ElementWrite.hadT38] else [] := by
    intro sdp
    unfold sdpAttributes
    split <;> split <;> rfl
  have hsame : (sdpAttributes optT38only (s ++ z) s.length).filter (fun e => e.event.isNone) =
      (sdpAttributes optT38only s s.length).filter fun e => e.event.isNone := by
    rw [hattributes, hattributes, List.take_left, List.take_length]
  rw [parseSdp_eq, parseSdp_eq, getIpPortFromSdp_behind hz]
  rcases getIpPortFromSdp s s.length with _ | ⟨addr, port⟩
  · dsimp only
    split
    · rfl
    · exact hsame
  · exact congrArg (List.cons (ElementWrite.addIpPort addr port)) hsame

/-- A packet that has been terminated carries the text, with a NUL or nothing behind it. -/
lemma Packet.Carries.terminate (h : p.Carries data text) : p.terminate.Carries data text ∧
    ∃ z : Bytes, z.headD 0 = 0 ∧ p.terminate.mem.drop data = text ++ z := by
  obtain ⟨hend, rest, hrest⟩ := h
  have hmem : p.terminate.mem = p.mem.set (min p.len.toNat p.caplen) 0 :=
    List.take_append_drop _ _
  have hcaplen : p.terminate.caplen = p.caplen := by
    have hle : p.caplen ≤ p.mem.length := by
      rw [Packet.mem, List.length_append]
      exact Nat.le_add_right _ _
    show ((p.mem.set (min p.len.toNat p.caplen) 0).take p.caplen).length = p.caplen
    rw [List.length_take, List.length_set, Nat.min_eq_left hle]
  have hdrop : p.terminate.mem.drop data = text ++ rest.set 0 0 := by
    rw [hmem, ← hend, List.drop_set, if_neg (by omega), ← hrest, Nat.add_sub_cancel_left,
      List.set_append_right _ _ le_rfl, Nat.sub_self]
  refine ⟨⟨?_, ?_⟩, rest.set 0 0, by cases rest <;> rfl, hdrop⟩
  · rw [hcaplen]
    exact hend
  · rw [hdrop]
    exact List.prefix_append _ _

/-- The assignments that the body of a message with this text leads to. -/
def bodyWrites (verbosity : ℤ) (optT38only : Bool) (text : Bytes) : List ElementWrite :=
  match (textValue text (ascii "Content-Type:")).or (textValue text (ascii "c:")),
      strstr text blankLine with
  | some value, some k =>
      if IsAccepted (value.map tolower) then
        parseSdp verbosity optT38only (text.drop k) (text.drop k).length
      else []
  | _, _ => []

/-- The assignments of a message, but for the payload type of events, can be told from its text. -/
lemma filter_parseBody_terminate (h : p.Carries data text) (hlt : text.length < 2 ^ 31)
    (verbosity : ℤ) (optT38only : Bool) :
    (parseBody verbosity optT38only (p.terminate.mem.drop data) (dataLen p.terminate data)).filter
        (fun e => e.event.isNone) =
      (bodyWrites verbosity optT38only text).filter fun e => e.event.isNone := by
  obtain ⟨hcarries, z, hz, hdrop⟩ := h.terminate
  obtain ⟨hlen, -⟩ := dataLen_of_carries hcarries
  obtain ⟨hfound, hle⟩ := strstr_behind hz text blankLine
  have hfull : ascii "Content-Type:" ∈ sipTags := by simp [sipTags]
  have hcompact : ascii "c:" ∈ sipTags := by simp [sipTags]
  have hvalue := getHeader_of_carries hcarries hlt hfull hcompact
  rw [parseBody_eq, parsedSdp_eq_value, hvalue, hdrop, hlen, hfound, bodyWrites]
  rcases (textValue text (ascii "Content-Type:")).or (textValue text (ascii "c:")) with _ | value
  · rfl
  rcases hk : strstr text blankLine with _ | k
  · rfl
  dsimp only
  by_cases haccepted : IsAccepted (value.map tolower)
  · have hk' : (UInt64.ofNat text.length - UInt64.ofNat k).toNat = (text.drop k).length := by
      have hsize : (text.drop k).length < UInt64.size := by
        rw [List.length_drop]
        exact (show text.length - k < 2 ^ 31 by omega).trans (by decide)
      rw [← Nat.add_sub_cancel' (hle k hk), ← List.length_drop, UInt64.ofNat_add, UInt64.add_comm,
        UInt64.add_sub_cancel, UInt64.toNat_ofNat_of_lt' hsize]
    rw [if_pos haccepted, if_pos haccepted, hk']
    dsimp only
    rw [List.drop_append_of_le_length (hle k hk)]
    exact filter_parseSdp_behind hz verbosity optT38only _
  · rw [if_neg haccepted, if_neg haccepted]

/-- **What is read of a message** that has been terminated can be told from its text, but for the
payload type of events. -/
theorem readSip_of_carries (h : p.Carries data text) (hlt : text.length < 2 ^ 31)
    (method : Bytes) :
    (readSip o p.terminate data method).Alike
      { method
        callId := (textValue text (ascii "Call-ID:")).or (textValue text (ascii "i:"))
        caller := nameFrom 256 (textValue text (ascii "From:")) (textValue text (ascii "f:"))
        called := nameFrom 256 (textValue text (ascii "To:")) (textValue text (ascii "t:"))
        body := bodyWrites o.verbosity o.optT38only text } := by
  obtain ⟨hcarries, -⟩ := h.terminate
  have hcallId := @getHeader_of_carries _ _ _ hcarries hlt (ascii "Call-ID:") (ascii "i:")
    (by simp [sipTags]) (by simp [sipTags])
  refine ⟨rfl, ?_, ?_, ?_, (filter_parseBody_terminate h hlt _ _).symm⟩
  · simp only [readSip]
    exact hcallId.symm
  · simp only [readSip]
    exact (sipPeername_of_carries hcarries hlt (by simp [sipTags]) (by simp [sipTags]) 256).symm
  · simp only [readSip]
    exact (sipPeername_of_carries hcarries hlt (by simp [sipTags]) (by simp [sipTags]) 256).symm

end PcapSipDump
