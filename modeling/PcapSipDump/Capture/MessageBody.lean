import PcapSipDump.Capture.Branch
import PcapSipDump.Capture.TaggedLines

/-!
# The body of a message and its call

`gettag` is given the whole datagram, so a header that is not in the header section is looked for
in the body, and the full form of a header is looked for in all of the message before its compact
form.  The Call-ID, the caller and the callee are therefore independent of the body exactly when
the header section has all three headers in their full form, and both addresses have a user part
there or their compact form is in the header section, too (`bodyIndependent_iff`).
-/

namespace PcapSipDump

open Lib Lib.CString

variable {o : Options} {p : Packet} {header : Bytes}

/-! ### Messages with a body -/

/-- The end of the last header line and the blank line before the body. -/
def blankLine : Bytes := ascii "\r\n\r\n"

/-- What decides whose call a message is. -/
def SipMessage.identity (msg : SipMessage) : Option Bytes × Buf 256 × Buf 256 :=
  (msg.callId, msg.caller, msg.called)

/-- The packet carries the text from the position `data` to its end. -/
def Packet.Carries (p : Packet) (data : ℕ) (text : Bytes) : Prop :=
  data + text.length = min p.len.toNat p.caplen ∧ text <+: p.mem.drop data

/-- The identity of a message with this header section does not depend on its body.  The length of
a message fits an `int`: the bytes that libpcap captures of a packet are far fewer. -/
def BodyIndependent (o : Options) (header : Bytes) : Prop :=
  ∀ (p q : Packet) (data data' : ℕ) (method method' body body' : Bytes),
    p.Carries data (header ++ blankLine ++ body) → q.Carries data' (header ++ blankLine ++ body') →
    (header ++ blankLine ++ body).length < 2 ^ 31 →
    (header ++ blankLine ++ body').length < 2 ^ 31 →
    (readSip o p data method).identity = (readSip o q data' method').identity

/-- The value of a header in the header section. -/
def headerValue (header name : Bytes) : Option Bytes := taggedValue name (lines header)

/-- The header section has the header in its full form, and a user part in it or the compact
form. -/
def nameDecided (header name compact : Bytes) : Bool :=
  match headerValue header name with
  | none => false
  | some value => (peername value).isSome || (headerValue header compact).isSome

/-- The header section decides whose call the message is. -/
def HeaderDecides (header : Bytes) : Prop :=
  (headerValue header (ascii "Call-ID:")).isSome ∧
    nameDecided header (ascii "From:") (ascii "f:") ∧
    nameDecided header (ascii "To:") (ascii "t:")

instance : Decidable (HeaderDecides header) := inferInstanceAs (Decidable (_ ∧ _ ∧ _))

/-! ### The values in a message -/

/-- The value of the first terminated line with the tag. -/
def textValue (text tag : Bytes) : Option Bytes := taggedValue tag (lines text).dropLast

/-- A header is looked for in the header section first. -/
lemma textValue_message {tag : Bytes} (hne : tag ≠ []) (header body : Bytes) :
    textValue (header ++ blankLine ++ body) tag =
      (headerValue header tag).or (textValue body tag) := by
  have hlines : lines (header ++ blankLine ++ body) =
      lines header ++ ([[], [], []] ++ lines body) := by
    have htext : header ++ blankLine ++ body = header ++ 13 :: ([] ++ 10 :: ([] ++ 13 :: ([] ++
        10 :: body))) := by
      simp [blankLine, ascii]
    rw [htext, lines_append _ _ (by decide), lines_append _ _ (by decide),
      lines_append _ _ (by decide), lines_append _ _ (by decide)]
    rfl
  have hblank : taggedValue tag [[], [], []] = none := by
    cases tag with
    | nil => exact absurd rfl hne
    | cons c tag => rfl
  rw [textValue, hlines, ← List.append_assoc, List.dropLast_append_of_ne_nil (lines_ne_nil body),
    List.append_assoc, taggedValue_append, taggedValue_append, hblank, Option.none_or]
  rfl

/-- The buffer for a name after it has been looked for in the values of a header and of its compact
form. -/
def nameFrom (n : ℕ) (value compactValue : Option Bytes) : Buf n :=
  match peername (value.getD []) with
  | some name => copyTerminated (fun _ => 0) name
  | none => copyTerminated (copyTerminated (fun _ => 0) (ascii "empty"))
      ((peername (compactValue.getD [])).getD (ascii "empty"))

-- The two functions are unfolded as functions.  An equation between an application and its body
-- would make the kernel evaluate `gettag`.
lemma getSipPeername_fun : @getSipPeername = fun {n : ℕ} (data : Bytes) (len : ℕ) (tag : Bytes)
    (buf : Buf n) =>
      (peername (((gettag data (intLen len) tag).map (slice data)).getD [])).elim
        (false, copyTerminated buf (ascii "empty"))
        fun name => (true, copyTerminated buf name) := by
  delta getSipPeername
  funext n data len tag buf
  dsimp only
  generalize peername _ = name
  rcases name with _ | name <;> rfl

lemma sipPeername_fun : sipPeername = fun (n : ℕ) (data : Bytes) (len : ℕ) (tag compact : Bytes) =>
    match (getSipPeername data len tag (fun _ => 0) : Bool × Buf n) with
    | (true, buf) => buf
    | (false, buf) => (getSipPeername data len compact buf).2 := by
  delta sipPeername
  funext n data len tag compact
  generalize (getSipPeername data len tag (fun _ => 0) : Bool × Buf n) = r
  rcases r with ⟨_ | _, buf⟩ <;> rfl

lemma getSipPeername_of_value {n : ℕ} {data tag : Bytes} {len : ℕ} {value : Option Bytes}
    (h : (gettag data (intLen len) tag).map (slice data) = value) (buf : Buf n) :
    getSipPeername data len tag buf = (peername (value.getD [])).elim
      (false, copyTerminated buf (ascii "empty")) fun name => (true, copyTerminated buf name) := by
  rw [getSipPeername_fun]
  beta_reduce
  rw [h]

lemma sipPeername_of_results {n : ℕ} {data tag compact : Bytes} {len : ℕ} {r : Bool × Buf n}
    {r' : Buf n → Bool × Buf n} (h : getSipPeername data len tag (fun _ => 0) = r)
    (h' : ∀ buf, getSipPeername data len compact buf = r' buf) :
    sipPeername n data len tag compact = if r.1 then r.2 else (r' r.2).2 := by
  rw [sipPeername_fun]
  beta_reduce
  simp only [h, h']
  rcases r with ⟨_ | _, buf⟩ <;> rfl

lemma sipPeername_of_values {n : ℕ} {data tag compact : Bytes} {len : ℕ}
    {value compactValue : Option Bytes}
    (hvalue : (gettag data (intLen len) tag).map (slice data) = value)
    (hcompact : (gettag data (intLen len) compact).map (slice data) = compactValue) :
    sipPeername n data len tag compact = nameFrom n value compactValue := by
  rw [sipPeername_of_results (getSipPeername_of_value hvalue _) (getSipPeername_of_value hcompact),
    nameFrom]
  rcases peername (value.getD []) with _ | name
  · rcases peername (compactValue.getD []) with _ | name' <;> rfl
  · rfl

/-- The Call-ID of a message with this header section and this body. -/
def callIdFrom (header body : Bytes) : Option Bytes :=
  ((headerValue header (ascii "Call-ID:")).or (textValue body (ascii "Call-ID:"))).or
    ((headerValue header (ascii "i:")).or (textValue body (ascii "i:")))

/-- The name in a message with this header section and this body. -/
def headerName (header body name compact : Bytes) : Buf 256 :=
  nameFrom 256 ((headerValue header name).or (textValue body name))
    ((headerValue header compact).or (textValue body compact))

lemma sipPeername_eq {n : ℕ} {data tag compact : Bytes} {len : ℕ}
    (htag : tag ≠ [] ∧ ∀ c ∈ tag, isEol c = false)
    (hcompact : compact ≠ [] ∧ ∀ c ∈ compact, isEol c = false) :
    sipPeername n data len tag compact = nameFrom n (textValue (buffer data (intLen len)) tag)
      (textValue (buffer data (intLen len)) compact) :=
  sipPeername_of_values (map_slice_gettag htag.1 htag.2 _ _)
    (map_slice_gettag hcompact.1 hcompact.2 _ _)

/-- A length that fits an `int` is passed on. -/
lemma intLen_of_lt {len : ℕ} (h : len < 2 ^ 31) : intLen len = len := by
  unfold intLen
  rw [Int.bmod_def]
  split <;> omega

lemma dataLen_of_carries {data : ℕ} {text : Bytes} (h : p.Carries data text) :
    dataLen p data = text.length ∧ text.length < 2 ^ 32 := by
  have hlen : p.len.toNat < 2 ^ 32 := p.len.toNat_lt
  have hlt : text.length < 2 ^ 32 := by
    have := h.1
    omega
  refine ⟨?_, hlt⟩
  have hsub : UInt64.ofNat (data + text.length) - UInt64.ofNat data =
      UInt64.ofNat text.length := by
    rw [UInt64.ofNat_add, UInt64.add_comm, UInt64.add_sub_cancel]
  have hsize : text.length < UInt64.size := hlt.trans (by decide)
  rw [dataLen, ← h.1, hsub, UInt64.toNat_ofNat_of_lt' hsize]

/-- What `gettag` is given for a message. -/
lemma buffer_of_carries {data : ℕ} {text : Bytes} (h : p.Carries data text) :
    buffer (p.mem.drop data) (dataLen p data) = text ∧ (text.length < 2 ^ 31 →
      buffer (p.mem.drop data) (intLen (dataLen p data)) = text) := by
  obtain ⟨hlen, hlt⟩ := dataLen_of_carries h
  obtain ⟨rest, hrest⟩ := h.2
  have htext : buffer (p.mem.drop data) (dataLen p data) = text := by
    rw [hlen, buffer_of_lt (by omega), ← hrest, List.take_left]
  refine ⟨htext, fun hint => ?_⟩
  rw [hlen] at htext ⊢
  rw [intLen_of_lt hint, htext]

/-- What is read from a packet that carries a message. -/
lemma identity_of_carries {data : ℕ} {body : Bytes} (method : Bytes)
    (h : p.Carries data (header ++ blankLine ++ body))
    (hint : (header ++ blankLine ++ body).length < 2 ^ 31) :
    (readSip o p data method).identity = (callIdFrom header body,
      headerName header body (ascii "From:") (ascii "f:"),
      headerName header body (ascii "To:") (ascii "t:")) := by
  obtain ⟨htext, hnames⟩ := buffer_of_carries h
  have hvalue : ∀ {tag : Bytes}, tag ≠ [] → (∀ c ∈ tag, isEol c = false) →
      (gettag (p.mem.drop data) (dataLen p data) tag).map (slice (p.mem.drop data)) =
        (headerValue header tag).or (textValue body tag) := by
    intro tag hne heol
    rw [map_slice_gettag hne heol, htext]
    exact textValue_message hne header body
  have hcallId : (readSip o p data method).callId = callIdFrom header body := by
    rw [callIdFrom, ← hvalue (by decide) (by decide +kernel),
      ← hvalue (by decide) (by decide +kernel)]
    simp only [readSip, getHeader]
    rcases gettag (p.mem.drop data) (dataLen p data) (ascii "Call-ID:") with _ | v <;> rfl
  have hname : ∀ {name compact : Bytes}, (name ≠ [] ∧ ∀ c ∈ name, isEol c = false) →
      (compact ≠ [] ∧ ∀ c ∈ compact, isEol c = false) →
      sipPeername 256 (p.mem.drop data) (dataLen p data) name compact =
        headerName header body name compact := by
    intro name compact hname hcompact
    rw [sipPeername_eq hname hcompact, hnames hint, textValue_message hname.1,
      textValue_message hcompact.1, headerName]
  have htags : (ascii "From:" ≠ [] ∧ ∀ c ∈ ascii "From:", isEol c = false) ∧
      (ascii "f:" ≠ [] ∧ ∀ c ∈ ascii "f:", isEol c = false) ∧
      (ascii "To:" ≠ [] ∧ ∀ c ∈ ascii "To:", isEol c = false) ∧
      (ascii "t:" ≠ [] ∧ ∀ c ∈ ascii "t:", isEol c = false) := by decide +kernel
  obtain ⟨hfrom, hf, hto, ht⟩ := htags
  have hcaller := hname hfrom hf
  have hcalled := hname hto ht
  simp only [SipMessage.identity, hcallId]
  simp only [readSip, hcaller, hcalled]

/-! ### Independence of the body -/

lemma headerName_of_decided {name compact : Bytes} (h : nameDecided header name compact)
    (body body' : Bytes) :
    headerName header body name compact = headerName header body' name compact := by
  unfold nameDecided at h
  unfold headerName nameFrom
  rcases hv : headerValue header name with _ | value
  · simp [hv] at h
  · simp only [hv, Option.some_or, Option.getD_some] at h ⊢
    rcases hp : peername value with _ | found
    · rcases hc : headerValue header compact with _ | compactValue
      · simp [hp, hc] at h
      · simp only [Option.some_or]
    · rfl

/-- A body that is one line with the tag and a URI with a user part of one character. -/
def taggedBody (tag : Bytes) (c : UInt8) : Bytes := tag ++ ascii "sip:" ++ [c, 64] ++ [13]

lemma textValue_taggedBody {tag : Bytes} (heol : ∀ c ∈ tag, isEol c = false) {c : UInt8}
    (hc : isEol c = false) : textValue (taggedBody tag c) tag = some (ascii "sip:" ++ [c, 64]) := by
  have huri : ∀ d ∈ ascii "sip:" ++ [c, 64], isEol d = false := by
    intro d hd
    rcases List.mem_append.mp hd with hd | hd
    · have hsip : ∀ d ∈ ascii "sip:", isEol d = false := by decide +kernel
      exact hsip d hd
    · rcases List.mem_cons.mp hd with rfl | hd
      · exact hc
      · obtain rfl := List.mem_singleton.mp hd
        rfl
  have hline : ∀ d ∈ tag ++ (ascii "sip:" ++ [c, 64]), isEol d = false :=
    List.forall_mem_append.mpr ⟨heol, huri⟩
  have hlines : lines (taggedBody tag c) = [tag ++ (ascii "sip:" ++ [c, 64]), []] := by
    have htext : taggedBody tag c = tag ++ (ascii "sip:" ++ [c, 64]) ++ 13 :: [] := by
      simp [taggedBody]
    rw [htext, lines_append _ _ (by decide), lines_of_forall hline]
    rfl
  have hpre : tag.isPrefixOf (tag ++ (ascii "sip:" ++ [c, 64])) :=
    List.isPrefixOf_iff_prefix.mpr (List.prefix_append _ _)
  rw [textValue, hlines, List.dropLast_cons_of_ne_nil (by simp), taggedValue,
    List.find?_cons_of_pos hpre, Option.map_some, lineValue, List.drop_left]
  rfl

/-- A packet with this text. -/
def textPacket (text : Bytes) (h : text.length < 2 ^ 32) : Packet where
  ts := 0
  len := UInt32.ofNat text.length
  bytes := text
  caplen_lt := h

lemma carries_textPacket (text : Bytes) (h : text.length < 2 ^ 32) :
    (textPacket text h).Carries 0 text := by
  have hmem : (textPacket text h).mem.drop 0 = text := List.append_nil text
  have hlen : (UInt32.ofNat text.length).toNat = text.length := UInt32.toNat_ofNat_of_lt' h
  refine ⟨?_, by rw [hmem]⟩
  simp only [textPacket, Packet.caplen, hlen, min_self, Nat.zero_add]

/-- Two bodies of one line, for a header whose identity does not depend on the body. -/
lemma BodyIndependent.eq_of_taggedBody (h : BodyIndependent o header) (tag : Bytes)
    (hroom : header.length + 4 + (tag.length + 7) < 2 ^ 31) :
    callIdFrom header (taggedBody tag 97) = callIdFrom header (taggedBody tag 98) ∧
      headerName header (taggedBody tag 97) (ascii "From:") (ascii "f:") =
        headerName header (taggedBody tag 98) (ascii "From:") (ascii "f:") ∧
      headerName header (taggedBody tag 97) (ascii "To:") (ascii "t:") =
        headerName header (taggedBody tag 98) (ascii "To:") (ascii "t:") := by
  have hlen : ∀ c, (header ++ blankLine ++ taggedBody tag c).length < 2 ^ 31 := by
    intro c
    have hsip : (ascii "sip:").length = 4 := by decide
    have hblank : blankLine.length = 4 := by decide
    simp only [taggedBody, List.length_append, hsip, hblank, List.length_cons, List.length_nil]
    omega
  have hpacket : ∀ c, (header ++ blankLine ++ taggedBody tag c).length < 2 ^ 32 :=
    fun c => (hlen c).trans (by decide)
  have hread : ∀ c, (readSip o (textPacket _ (hpacket c)) 0 []).identity =
      (callIdFrom header (taggedBody tag c),
        headerName header (taggedBody tag c) (ascii "From:") (ascii "f:"),
        headerName header (taggedBody tag c) (ascii "To:") (ascii "t:")) :=
    fun c => identity_of_carries (o := o) [] (carries_textPacket _ (hpacket c)) (hlen c)
  have heq := h _ _ 0 0 [] [] _ _ (carries_textPacket _ (hpacket 97))
    (carries_textPacket _ (hpacket 98)) (hlen 97) (hlen 98)
  rw [hread, hread] at heq
  exact ⟨congrArg Prod.fst heq, congrArg (·.2.1) heq, congrArg (·.2.2) heq⟩

/-- Where the header section does not decide a name, it is the user part in some line of the
body. -/
lemma headerName_of_not_decided {name compact : Bytes} (h : nameDecided header name compact = false)
    (hname : ∀ c ∈ name, isEol c = false) (hcompact : ∀ c ∈ compact, isEol c = false) :
    ∃ tag, (tag = name ∨ tag = compact) ∧ ∀ c, c = 97 ∨ c = 98 →
      headerName header (taggedBody tag c) name compact 0 = c := by
  have hpeer : ∀ c : UInt8, c = 97 ∨ c = 98 →
      isEol c = false ∧ peername (ascii "sip:" ++ [c, 64]) = some [c] := by
    rintro c (rfl | rfl)
    · decide
    · decide
  have hfirst : ∀ (buf : Buf 256) (c : UInt8), copyTerminated buf [c] 0 = c := fun _ _ => rfl
  unfold nameDecided at h
  rcases hv : headerValue header name with _ | value
  · -- the full form is looked for in the body
    refine ⟨name, Or.inl rfl, fun c hc => ?_⟩
    obtain ⟨hc', hp⟩ := hpeer c hc
    rw [headerName, hv, Option.none_or, textValue_taggedBody hname hc', nameFrom, Option.getD_some,
      hp]
    exact hfirst _ c
  · -- the full form has no user part, and the compact form is looked for in the body
    simp only [hv, Bool.or_eq_false_iff, Option.isSome_eq_false_iff, Option.isNone_iff_eq_none] at h
    refine ⟨compact, Or.inr rfl, fun c hc => ?_⟩
    obtain ⟨hc', hp⟩ := hpeer c hc
    rw [headerName, hv, h.2, Option.none_or, Option.some_or, textValue_taggedBody hcompact hc',
      nameFrom, Option.getD_some, h.1, Option.getD_some, hp]
    exact hfirst _ c

/-- **The body and the identity of a message.**  Whatever its body is, a message has the same
Call-ID, caller and callee exactly when its header section decides them. -/
theorem bodyIndependent_iff (o : Options) (header : Bytes) (hroom : header.length + 32 < 2 ^ 31) :
    BodyIndependent o header ↔ HeaderDecides header := by
  constructor
  · intro h
    have hdecided : ∀ {name compact : Bytes}, (∀ c ∈ name, isEol c = false) →
        (∀ c ∈ compact, isEol c = false) → name.length ≤ 8 → compact.length ≤ 8 →
        (∀ tag : Bytes, tag.length ≤ 8 → headerName header (taggedBody tag 97) name compact =
          headerName header (taggedBody tag 98) name compact) →
        nameDecided header name compact = true := by
      intro name compact hname hcompact hlen hlen' heq
      by_contra hno
      obtain ⟨tag, htag, hletter⟩ :=
        headerName_of_not_decided (Bool.not_eq_true _ ▸ hno) hname hcompact
      have hsame := heq tag (by rcases htag with rfl | rfl <;> assumption)
      have hne := congrFun hsame 0
      rw [hletter 97 (Or.inl rfl), hletter 98 (Or.inr rfl)] at hne
      exact absurd hne (by decide)
    refine ⟨?_, ?_, ?_⟩
    · by_contra hno
      have hnone := Option.not_isSome_iff_eq_none.mp hno
      have hlen : (ascii "Call-ID:").length = 8 := by decide
      have heq := (h.eq_of_taggedBody (ascii "Call-ID:") (by omega)).1
      rw [callIdFrom, callIdFrom, hnone, textValue_taggedBody (by decide +kernel) (by decide),
        textValue_taggedBody (by decide +kernel) (by decide), Option.none_or, Option.none_or,
        Option.some_or, Option.some_or] at heq
      exact absurd heq (by decide)
    · exact hdecided (by decide +kernel) (by decide +kernel) (by decide) (by decide)
        fun tag hlen => (h.eq_of_taggedBody tag (by omega)).2.1
    · exact hdecided (by decide +kernel) (by decide +kernel) (by decide) (by decide)
        fun tag hlen => (h.eq_of_taggedBody tag (by omega)).2.2
  · rintro ⟨hcallId, hfrom, hto⟩ p q data data' method method' body body' hp hq hlen hlen'
    obtain ⟨callId, hcall⟩ := Option.isSome_iff_exists.mp hcallId
    rw [identity_of_carries method hp hlen, identity_of_carries method' hq hlen', callIdFrom,
      callIdFrom, hcall, headerName_of_decided hfrom _ body', headerName_of_decided hto _ body']
    rfl

/-- The header section of a message in full forms. -/
theorem bodyIndependent_fullForms :
    BodyIndependent Options.raw
      (ascii "INVITE sip:b@h SIP/2.0\r\nFrom: <sip:a@h>\r\nTo: <sip:b@h>\r\nCall-ID: x") :=
  (bodyIndependent_iff Options.raw _ (by decide)).mpr (by decide +kernel)

/-- An INVITE with compact forms, without a body and with a body that starts with a Call-ID. -/
theorem bodyIndependent_false :
    let header := ascii "INVITE sip:b@h SIP/2.0\r\nf: <sip:a@h>\r\nt: <sip:b@h>\r\ni: x"
    let p (body : Bytes) := Packet.captured 1000 (ipv4Udp 1 0 [10, 0, 0, 1] [10, 0, 0, 2] 5060 5060
      (header ++ blankLine ++ body))
    let callId (body : Bytes) := (branch Options.raw (p body) Options.raw.start.world).message.map
      SipMessage.callId
    callId [] = some (some (ascii "x")) ∧
      callId (ascii "Call-ID: y\r\n") = some (some (ascii "y")) := by
  decide +kernel

end PcapSipDump
