import PcapSipDump.Capture.MessageText
import PcapSipDump.Lib.FirstMatch

/-!
# The order of the header lines

Each header is looked for by itself, so a message means the same whatever the order of its header
lines is, unless a header is there twice (`headers_any_order`).  A header line may end with a
carriage return, a line feed or both; the blank line behind them has both.
-/

namespace PcapSipDump

open Lib Lib.CString

variable {o : Options} {p q : Packet} {header header' body : Bytes} {data data' : ℕ}

/-! ### Header sections -/

/-- The lines of a header section. -/
def headerLines (header : Bytes) : List Bytes := (lines header).filter fun line => line ≠ []

/-- No tag is in two lines. -/
def TagsOnce (ls : List Bytes) : Prop :=
  ∀ tag ∈ sipTags, (ls.filter fun line => tag.isPrefixOf line).length ≤ 1

instance (ls : List Bytes) : Decidable (TagsOnce ls) :=
  inferInstanceAs (Decidable (∀ tag ∈ sipTags, _))

/-- The blank line behind the header section is the first one, and no NUL is in front of it. -/
def EndsAtBlank (header : Bytes) : Prop :=
  0 ∉ header ∧ ∀ i < header.length, ¬blankLine <+: (header ++ blankLine).drop i

instance (header : Bytes) : Decidable (EndsAtBlank header) :=
  inferInstanceAs (Decidable (_ ∧ ∀ i < header.length, _))

lemma taggedValue_headerLines {tag : Bytes} (hne : tag ≠ []) (header : Bytes) :
    taggedValue tag (headerLines header) = headerValue header tag := by
  have hfind : (headerLines header).find? (fun line => tag.isPrefixOf line) =
      (lines header).find? fun line => tag.isPrefixOf line := by
    rw [headerLines, List.find?_filter]
    congr 1
    funext line
    by_cases hline : line = []
    · subst hline
      cases tag with
      | nil => exact absurd rfl hne
      | cons c tag => rfl
    · rw [decide_eq_true hline]
      cases tag.isPrefixOf line <;> rfl
  rw [headerValue, taggedValue, taggedValue, hfind]

/-- A header has the same value in every order. -/
lemma headerValue_of_perm (hperm : (headerLines header).Perm (headerLines header'))
    (honce : TagsOnce (headerLines header)) {tag : Bytes} (htag : tag ∈ sipTags) :
    headerValue header tag = headerValue header' tag := by
  have hne := (sipTags_plain tag htag).1
  rw [← taggedValue_headerLines hne, ← taggedValue_headerLines hne, taggedValue, taggedValue,
    find?_eq_of_perm hperm (honce tag htag)]

/-! ### What is read of a message -/

/-- The first blank line of a payload is that behind the header section. -/
lemma isLeast_endsAtBlank {rest : Bytes} (h : EndsAtBlank header) :
    IsLeast {i | blankLine <+: (header ++ blankLine ++ rest).drop i} header.length := by
  refine ⟨?_, fun i hi => ?_⟩
  · show blankLine <+: (header ++ blankLine ++ rest).drop header.length
    rw [List.append_assoc, List.drop_left]
    exact List.prefix_append _ _
  · by_contra hlt
    have hlt' : i < header.length := not_le.mp hlt
    refine h.2 i hlt' ?_
    have hpre : blankLine <+: (header ++ blankLine ++ rest).drop i := hi
    rw [List.drop_append_of_le_length (by rw [List.length_append]; omega)] at hpre
    exact List.prefix_of_prefix_length_le hpre (List.prefix_append _ _)
      (by rw [List.length_drop, List.length_append]; omega)

/-- The SDP of a message starts with the blank line behind its header section. -/
lemma bodyWrites_of_endsAtBlank (hend : EndsAtBlank header) (verbosity : ℤ) (optT38only : Bool) :
    bodyWrites verbosity optT38only (header ++ blankLine ++ body) =
      match (textValue (header ++ blankLine ++ body) (ascii "Content-Type:")).or
        (textValue (header ++ blankLine ++ body) (ascii "c:")) with
      | some value =>
          if IsAccepted (value.map tolower) then
            parseSdp verbosity optT38only (blankLine ++ body) (blankLine ++ body).length
          else []
      | none => [] := by
  have hnul : 0 ∉ (header ++ blankLine ++ body).take header.length := by
    rw [List.append_assoc, List.take_left]
    exact hend.1
  have hfound : strstr (header ++ blankLine ++ body) blankLine = some header.length := by
    rw [strstr_of_isLeast (by simp [blankLine, ascii]) (isLeast_endsAtBlank hend), if_neg hnul]
  have hdrop : (header ++ blankLine ++ body).drop header.length = blankLine ++ body := by
    rw [List.append_assoc, List.drop_left]
  rw [bodyWrites, hfound]
  rcases (textValue (header ++ blankLine ++ body) (ascii "Content-Type:")).or
    (textValue (header ++ blankLine ++ body) (ascii "c:")) with _ | value
  · rfl
  · dsimp only
    rw [hdrop]

/-- **The order of the header lines does not matter.**  Two packets carry messages with the same
body behind the first blank line and with the same header lines, in any order, and each with a
carriage return, a line feed or both at its end.  Unless a header is there twice, the same is read
of both, the payload type of events apart: the Call-ID, the caller and the callee, and the
assignments of the body to the element of the call. -/
theorem headers_any_order (o : Options) (method : Bytes)
    (hp : p.Carries data (header ++ blankLine ++ body))
    (hq : q.Carries data' (header' ++ blankLine ++ body))
    (hlen : (header ++ blankLine ++ body).length < 2 ^ 31)
    (hlen' : (header' ++ blankLine ++ body).length < 2 ^ 31)
    (hend : EndsAtBlank header) (hend' : EndsAtBlank header')
    (hperm : (headerLines header).Perm (headerLines header'))
    (honce : TagsOnce (headerLines header)) :
    (readSip o p.terminate data method).Alike (readSip o q.terminate data' method) := by
  have hvalue : ∀ tag ∈ sipTags, textValue (header ++ blankLine ++ body) tag =
      textValue (header' ++ blankLine ++ body) tag := by
    intro tag htag
    rw [textValue_message (sipTags_plain tag htag).1, textValue_message (sipTags_plain tag htag).1,
      headerValue_of_perm hperm honce htag]
  have hwrites : bodyWrites o.verbosity o.optT38only (header ++ blankLine ++ body) =
      bodyWrites o.verbosity o.optT38only (header' ++ blankLine ++ body) := by
    rw [bodyWrites_of_endsAtBlank hend, bodyWrites_of_endsAtBlank hend',
      hvalue _ (by simp [sipTags]), hvalue _ (by simp [sipTags])]
  have hreadp := readSip_of_carries (o := o) hp hlen method
  have hreadq := readSip_of_carries (o := o) hq hlen' method
  rw [hvalue _ (by simp [sipTags]), hvalue (ascii "i:") (by simp [sipTags]),
    hvalue (ascii "From:") (by simp [sipTags]), hvalue (ascii "f:") (by simp [sipTags]),
    hvalue (ascii "To:") (by simp [sipTags]), hvalue (ascii "t:") (by simp [sipTags]),
    hwrites] at hreadp
  exact hreadp.trans hreadq.symm

/-- An INVITE with the usual line ends, and one with line feeds and with the Call-ID first.  Other
bytes lie behind it. -/
theorem headers_any_order_invite :
    let body := ascii "c=IN IP4 10.0.0.3\r\nm=audio 4000 RTP/AVP 0\r\n"
    let header := ascii "INVITE sip:b@h SIP/2.0\r\nFrom: <sip:a@h>\r\nTo: <sip:b@h>" ++
      ascii "\r\nCall-ID: x\r\nc: application/sdp"
    let header' := ascii "INVITE sip:b@h SIP/2.0\nCall-ID: x\nc: application/sdp\nTo: <sip:b@h>" ++
      ascii "\nFrom: <sip:a@h>"
    let p := textPacket (header ++ blankLine ++ body) (by decide +kernel)
    let q := { textPacket (header' ++ blankLine ++ body) (by decide +kernel) with beyond := [0x41] }
    (readSip Options.raw q.terminate 0 (ascii "INVITE")).callId = some (ascii "x") ∧
      (readSip Options.raw p.terminate 0 (ascii "INVITE")).Alike
        (readSip Options.raw q.terminate 0 (ascii "INVITE")) := by
  intro body header header' p q
  have hq : q.Carries 0 (header' ++ blankLine ++ body) := by
    refine ⟨by decide +kernel, ?_⟩
    exact List.prefix_append _ _
  refine ⟨by decide +kernel, headers_any_order Options.raw _ (carries_textPacket _ _) hq ?_ ?_ ?_ ?_
    ?_ ?_⟩ <;> decide +kernel

end PcapSipDump
