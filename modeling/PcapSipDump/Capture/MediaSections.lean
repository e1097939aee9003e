import PcapSipDump.Capture.SdpFlow

/-!
# The media sections of an SDP body

An SDP body has session-level lines and media sections with lines of their own.  `parse_sdp` does
not know the sections: it takes the first connection line and the first audio line of the whole
body.  So it registers the flow of the first audio section exactly when the first connection line
gives the address in force for that section, and the section's port is not zero
(`media_flow_iff`).
-/

namespace PcapSipDump

open Lib.CString

/-! ### Addresses -/

lemma isEol_of_isdigit {c : UInt8} (h : isdigit c) : isEol c = false := by
  by_contra heol
  rw [isdigit_of_isEol (Bool.not_eq_false _ ▸ heol)] at h
  exact Bool.false_ne_true h

/-- A number of an address: at most three digits without leading zeros, and at most 255. -/
structure Octet where
  digits : Bytes
  isdigit_of_mem : ∀ c ∈ digits, isdigit c
  ne_nil : digits ≠ []
  length_le : digits.length ≤ 3
  canonical : digits.head? = some 48 → digits = [48]
  value_le : leadingDigits digits ≤ 255

namespace Octet

variable (o : Octet) {t : Bytes}

/-- The number. -/
def value : ℕ := leadingDigits o.digits

/-- `strtoul` reads the number and stops behind it. -/
lemma parseNumber_digits (ht : t.headD 0 = 0 ∨ t.headD 0 = 46 ∨ t.headD 0 = 47) :
    parseNumber (o.digits ++ t) = (o.value, t) := by
  have hstop : isdigit (t.headD 0) = false := by
    rcases ht with h | h | h <;> rw [h] <;> decide
  by_cases hzero : o.digits.head? = some 48
  · -- a zero would start an octal or a hexadecimal number
    have hdigits := o.canonical hzero
    rw [value, hdigits]
    cases t with
    | nil => rfl
    | cons x t =>
      rw [List.headD_cons] at ht
      rcases ht with rfl | rfl | rfl <;> rfl
  · obtain ⟨d, ds, hdigits⟩ := List.exists_cons_of_ne_nil o.ne_nil
    have hd : d ≠ 48 := by
      rintro rfl
      rw [hdigits] at hzero
      exact hzero rfl
    have hdefault : parseNumber (o.digits ++ t) = (leadingDigits (o.digits ++ t),
        (o.digits ++ t).drop ((o.digits ++ t).takeWhile isdigit).length) := by
      rw [hdigits, List.cons_append]
      unfold parseNumber
      split
      · rename_i heq
        exact absurd (List.cons.inj heq).1 hd
      · rfl
    rw [hdefault, leadingDigits_append o.isdigit_of_mem hstop,
      takeWhile_isdigit o.isdigit_of_mem hstop, List.drop_left, value]

lemma isdigit_head : isdigit ((o.digits ++ t).headD 0) :=
  isdigit_headD o.isdigit_of_mem o.ne_nil t

/-- A number with a dot behind it is a part of the address. -/
lemma inetParts_dot (fuel : ℕ) (parts : List ℕ) :
    inetParts (fuel + 1) parts (o.digits ++ 46 :: t) = inetParts fuel (parts ++ [o.value]) t := by
  have hle : ¬255 < o.value := not_lt.mpr o.value_le
  rw [inetParts, if_pos o.isdigit_head, o.parseNumber_digits (by simp)]
  simp [hle]

/-- A number at the end of the string is the last part. -/
lemma inetParts_end (fuel : ℕ) (parts : List ℕ) :
    inetParts (fuel + 1) parts o.digits = some (parts ++ [o.value]) := by
  have hnumber := o.parseNumber_digits (t := []) (by simp)
  have hhead := o.isdigit_head (t := [])
  rw [List.append_nil] at hnumber hhead
  rw [inetParts, if_pos hhead, hnumber]
  simp

/-- A number with a slash behind it is none. -/
lemma inetParts_slash (fuel : ℕ) (parts : List ℕ) :
    inetParts (fuel + 1) parts (o.digits ++ 47 :: t) = none := by
  rw [inetParts, if_pos o.isdigit_head, o.parseNumber_digits (by simp)]
  simp [isspace]

end Octet

/-- A dotted quad. -/
structure Quad where
  a : Octet
  b : Octet
  c : Octet
  d : Octet

namespace Quad

variable (q : Quad)

/-- The text of the address. -/
def text : Bytes :=
  q.a.digits ++ 46 :: (q.b.digits ++ 46 :: (q.c.digits ++ 46 :: q.d.digits))

/-- The address in network byte order. -/
def addr : UInt32 :=
  UInt32.ofNat (q.a.value + 256 * q.b.value + 256 ^ 2 * q.c.value + 256 ^ 3 * q.d.value)

lemma inetParts_text : inetParts 4 [] q.text =
    some [q.a.value, q.b.value, q.c.value, q.d.value] := by
  rw [text, Octet.inetParts_dot, Octet.inetParts_dot, Octet.inetParts_dot, Octet.inetParts_end]
  rfl

lemma inetParts_slash (t : Bytes) : inetParts 4 [] (q.text ++ 47 :: t) = none := by
  simp only [text, List.append_assoc, List.cons_append]
  rw [Octet.inetParts_dot, Octet.inetParts_dot, Octet.inetParts_dot, Octet.inetParts_slash]

/-- `inet_addr` reads a dotted quad. -/
lemma inetAddr_text : inetAddr q.text = q.addr := by
  have ha := q.a.value_le
  have hb := q.b.value_le
  have hc := q.c.value_le
  have hd := q.d.value_le
  unfold inetAddr addr
  rw [inetParts_text]
  unfold Octet.value
  simp only [List.getLastD_cons, List.getLastD_nil, List.length_cons, List.length_nil,
    List.dropLast_cons_cons, List.dropLast_singleton, List.foldl_cons, List.foldl_nil]
  rw [if_pos (by omega)]
  congr 1
  omega

lemma length_text_le : q.text.length ≤ 15 := by
  have ha := q.a.length_le
  have hb := q.b.length_le
  have hc := q.c.length_le
  have hd := q.d.length_le
  simp only [text, List.length_append, List.length_cons]
  omega

/-- The bytes of an address. -/
lemma mem_text {c : UInt8} (h : c ∈ q.text) : isdigit c ∨ c = 46 := by
  simp only [text, List.mem_append, List.mem_cons] at h
  rcases h with h | h | h | h | h | h | h
  · exact Or.inl (q.a.isdigit_of_mem c h)
  · exact Or.inr h
  · exact Or.inl (q.b.isdigit_of_mem c h)
  · exact Or.inr h
  · exact Or.inl (q.c.isdigit_of_mem c h)
  · exact Or.inr h
  · exact Or.inl (q.d.isdigit_of_mem c h)

lemma ne_zero_of_mem_text {c : UInt8} (h : c ∈ q.text) : c ≠ 0 := by
  rintro rfl
  exact absurd (q.mem_text h) (by decide)

lemma isEol_of_mem_text {c : UInt8} (h : c ∈ q.text) : isEol c = false := by
  rcases q.mem_text h with hdigit | rfl
  · exact isEol_of_isdigit hdigit
  · decide

end Quad

/-- The value of a connection line: an address and, for a multicast address, what follows it behind
a slash. -/
structure Connection where
  quad : Quad
  suffix : Bytes
  suffix_slash : suffix = [] ∨ ∃ t, suffix = 47 :: t
  suffix_eol : ∀ c ∈ suffix, isEol c = false

namespace Connection

variable (c : Connection)

/-- The text of the value. -/
def text : Bytes := c.quad.text ++ c.suffix

/-- What `inet_addr` reads: it does not accept an address with a suffix. -/
def readAddr : UInt32 := if c.suffix = [] then c.quad.addr else 0xffffffff

lemma inetAddr_text : inetAddr (cstr (c.text.take 19)) = c.readAddr := by
  have hlen := c.quad.length_text_le
  rcases c.suffix_slash with hs | ⟨t, hs⟩
  · have hnul : cstr c.quad.text = c.quad.text :=
      cstr_eq_self fun _ hb => c.quad.ne_zero_of_mem_text hb
    rw [readAddr, if_pos hs, text, hs, List.append_nil, List.take_of_length_le (by omega), hnul,
      Quad.inetAddr_text]
  · obtain ⟨k, hk⟩ : ∃ k, 19 - c.quad.text.length = k + 1 := ⟨18 - c.quad.text.length, by omega⟩
    have htake : c.text.take 19 = c.quad.text ++ 47 :: t.take k := by
      rw [text, hs, List.take_append, List.take_of_length_le (by omega), hk, List.take_succ_cons]
    have hnul : cstr (c.quad.text ++ 47 :: t.take k) = c.quad.text ++ 47 :: cstr (t.take k) := by
      have hpos : ∀ b ∈ c.quad.text, decide (b ≠ 0) = true :=
        fun b hb => decide_eq_true (c.quad.ne_zero_of_mem_text hb)
      rw [cstr, List.takeWhile_append_of_pos hpos, List.takeWhile_cons_of_pos (by decide), cstr]
    have hrejected : inetAccepts (c.quad.text ++ 47 :: cstr (t.take k)) = false := by
      rw [inetAccepts, Quad.inetParts_slash]
    rw [readAddr, if_neg (by rw [hs]; simp), htake, hnul, inetAddr_of_rejected hrejected]

end Connection

/-! ### Bodies -/

/-- A line that is neither a connection line nor the start of a media section. -/
structure OtherLine where
  text : Bytes
  ne_nil : text ≠ []
  no_eol : ∀ c ∈ text, isEol c = false
  not_conn : ¬ascii "c=" <+: text
  not_media : ¬ascii "m=" <+: text

/-- A line of the session or of a media section, whose connection lines are all `IN IP4`. -/
inductive SdpLine where
  | conn (c : Connection)
  | other (line : OtherLine)

/-- The text of a line. -/
def SdpLine.text : SdpLine → Bytes
  | .conn c => connTag ++ c.text
  | .other line => line.text

/-- The connection of a connection line. -/
def SdpLine.connection : SdpLine → Option Connection
  | .conn c => some c
  | .other _ => none

/-- A media section: its `m=` line, with the media type, the port and what follows it, and its own
lines. -/
structure MediaSection where
  media : Bytes
  port : Bytes
  rest : Bytes
  own : List SdpLine
  media_plain : ∀ c ∈ media, c ≠ 32 ∧ isEol c = false
  port_digits : ∀ c ∈ port, isdigit c
  port_ne_nil : port ≠ []
  port_lt : leadingDigits port < 65536
  rest_head : rest.head? = some 32 ∨ rest.head? = some 47
  rest_eol : ∀ c ∈ rest, isEol c = false

namespace MediaSection

/-- The text of the `m=` line. -/
def text (s : MediaSection) : Bytes := ascii "m=" ++ (s.media ++ 32 :: (s.port ++ s.rest))

/-- The port as a number. -/
def portNumber (s : MediaSection) : UInt16 := UInt16.ofNat (leadingDigits s.port)

/-- The lines of the section. -/
def lines (s : MediaSection) : List Bytes := s.text :: s.own.map SdpLine.text

end MediaSection

/-- The first connection of a list of lines. -/
def connectionOf (ls : List SdpLine) : Option Connection := ls.findSome? SdpLine.connection

/-- The terminated lines of a text that are not empty. -/
def fullLines (text : Bytes) : List Bytes := (lines text).dropLast.filter fun line => line ≠ []

/-- An SDP body: session-level lines followed by media sections. -/
structure SdpBody where
  session : List SdpLine
  sections : List MediaSection

namespace SdpBody

variable (b : SdpBody)

/-- The lines of the body. -/
def lines : List Bytes := b.session.map SdpLine.text ++ b.sections.flatMap MediaSection.lines

/-- The first audio section. -/
def audio : Option MediaSection := b.sections.find? fun s => s.media = ascii "audio"

/-- The connection in force for a section: its own one, or that of the session. -/
def connection (s : MediaSection) : Option Connection :=
  (connectionOf s.own).or (connectionOf b.session)

/-- The first connection of the body, wherever it stands. -/
def firstConnection : Option Connection :=
  (connectionOf b.session).or (b.sections.findSome? fun s => connectionOf s.own)

/-- The terminated lines of the text are those of the body, with empty lines between them. -/
def WrittenAs (text : Bytes) : Prop := fullLines text = b.lines

end SdpBody

/-! ### The text of a body -/

section Text

variable {line rest lead : Bytes}

lemma fullLines_line (hne : line ≠ []) (hline : ∀ c ∈ line, isEol c = false) {c : UInt8}
    (hc : isEol c) : fullLines (line ++ c :: rest) = line :: fullLines rest := by
  rw [fullLines, dropLast_lines_line hline hc, List.filter_cons_of_pos (by simpa using hne),
    fullLines]

/-- Line ends in front of a text make empty lines. -/
lemma fullLines_lead (hlead : ∀ c ∈ lead, isEol c) : fullLines (lead ++ rest) = fullLines rest := by
  induction lead with
  | nil => rfl
  | cons c lead ih =>
    have hc : isEol c := hlead c List.mem_cons_self
    have hempty : (lines (c :: (lead ++ rest))).dropLast = [] :: (lines (lead ++ rest)).dropLast :=
      dropLast_lines_line (List.forall_mem_nil _) hc (lead ++ rest)
    rw [List.cons_append, fullLines, hempty, List.filter_cons_of_neg (by simp), ← fullLines]
    exact ih fun d hd => hlead d (List.mem_cons_of_mem c hd)

lemma fullLines_render (ls : List Bytes)
    (hls : ∀ line ∈ ls, line ≠ [] ∧ ∀ c ∈ line, isEol c = false) :
    fullLines (ls.flatMap fun line => line ++ ascii "\r\n") = ls := by
  induction ls with
  | nil => rfl
  | cons line ls ih =>
    obtain ⟨hne, hline⟩ := hls line List.mem_cons_self
    have hlf : ∀ c ∈ ascii "\n", isEol c := by simp [ascii, isEol]
    have hcrlf : line ++ ascii "\r\n" = line ++ 13 :: ascii "\n" := rfl
    rw [List.flatMap_cons, hcrlf, List.append_assoc, List.cons_append,
      fullLines_line hne hline (by decide), fullLines_lead hlf,
      ih fun l hl => hls l (List.mem_cons_of_mem line hl)]

end Text

/-! ### The lines of a body -/

lemma SdpLine.text_plain (line : SdpLine) : line.text ≠ [] ∧ ∀ c ∈ line.text, isEol c = false := by
  cases line with
  | conn c =>
    refine ⟨by simp [text, connTag, ascii], fun x hx => ?_⟩
    rw [text, Connection.text, List.mem_append, List.mem_append] at hx
    rcases hx with hx | hx | hx
    · exact isEol_connTag x hx
    · exact c.quad.isEol_of_mem_text hx
    · exact c.suffix_eol x hx
  | other line => exact ⟨line.ne_nil, line.no_eol⟩

lemma MediaSection.text_plain (s : MediaSection) : s.text ≠ [] ∧ ∀ c ∈ s.text, isEol c = false := by
  refine ⟨by simp [text, ascii], fun x hx => ?_⟩
  rw [text, List.mem_append, List.mem_append, List.mem_cons, List.mem_append] at hx
  rcases hx with hx | hx | rfl | hx | hx
  · have hm : ∀ x ∈ ascii "m=", isEol x = false := by simp [ascii, isEol]
    exact hm x hx
  · exact (s.media_plain x hx).2
  · decide
  · exact isEol_of_isdigit (s.port_digits x hx)
  · exact s.rest_eol x hx

/-- The text of a body with CRLF behind each line. -/
def SdpBody.render (b : SdpBody) : Bytes := b.lines.flatMap fun line => line ++ ascii "\r\n"

/-- Every body can be written, with the blank line of the message in front of it. -/
lemma SdpBody.writtenAs_render (b : SdpBody) {lead : Bytes} (hlead : ∀ c ∈ lead, isEol c) :
    b.WrittenAs (lead ++ b.render) := by
  rw [WrittenAs, fullLines_lead hlead, render]
  refine fullLines_render b.lines fun line hline => ?_
  rw [lines, List.mem_append, List.mem_map, List.mem_flatMap] at hline
  rcases hline with ⟨l, -, rfl⟩ | ⟨s, -, hline⟩
  · exact l.text_plain
  · rw [MediaSection.lines, List.mem_cons, List.mem_map] at hline
    rcases hline with rfl | ⟨l, -, rfl⟩
    · exact s.text_plain
    · exact l.text_plain

/-! ### The values in a body -/

/-- Empty lines have no value. -/
lemma taggedValue_filter {tag : Bytes} (hne : tag ≠ []) (ls : List Bytes) :
    taggedValue tag (ls.filter fun line => line ≠ []) = taggedValue tag ls := by
  induction ls with
  | nil => rfl
  | cons line ls ih =>
    cases line with
    | nil =>
      have hno : ¬tag <+: [] := fun h => hne (List.prefix_nil.mp h)
      rw [taggedValue_cons, if_neg hno, List.filter_cons_of_neg (by simp), ih]
    | cons c line =>
      rw [List.filter_cons_of_pos (by simp), taggedValue_cons, taggedValue_cons, ih]

/-! ### Connection lines -/

lemma Connection.isdigit_head (c : Connection) : isdigit (c.text.headD 0) := by
  rw [text, Quad.text, List.append_assoc]
  exact c.quad.a.isdigit_head

lemma SdpLine.taggedValue_text (ls : List SdpLine) :
    taggedValue connTag (ls.map SdpLine.text) = (connectionOf ls).map Connection.text := by
  induction ls with
  | nil => rfl
  | cons line ls ih =>
    rw [List.map_cons, taggedValue_cons, ih]
    cases line with
    | conn c =>
      rw [SdpLine.text, if_pos (List.prefix_append _ _),
        lineValue_append _ (ne_blank_of_isdigit c.isdigit_head)]
      rfl
    | other line =>
      have hno : ¬connTag <+: line.text :=
        fun h => line.not_conn ((by decide : ascii "c=" <+: connTag).trans h)
      rw [if_neg (by exact hno)]
      rfl

lemma MediaSection.taggedValue_lines (s : MediaSection) :
    taggedValue connTag s.lines = (connectionOf s.own).map Connection.text := by
  have hno : ¬connTag <+: s.text := by
    rintro ⟨t, ht⟩
    exact absurd (List.cons.inj ht).1 (by decide)
  rw [lines, taggedValue_cons, if_neg hno, SdpLine.taggedValue_text]

lemma SdpBody.taggedValue_conn (b : SdpBody) :
    taggedValue connTag b.lines = b.firstConnection.map Connection.text := by
  have hsections : taggedValue connTag (b.sections.flatMap MediaSection.lines) =
      (b.sections.findSome? fun s => connectionOf s.own).map Connection.text := by
    induction b.sections with
    | nil => rfl
    | cons s sections ih =>
      rw [List.flatMap_cons, taggedValue_append, MediaSection.taggedValue_lines, ih,
        List.findSome?_cons]
      rcases connectionOf s.own with _ | c <;> simp
  rw [lines, taggedValue_append, SdpLine.taggedValue_text, hsections, firstConnection]
  rcases connectionOf b.session with _ | c <;> simp

/-! ### Media lines -/

lemma SdpLine.not_audio (line : SdpLine) : ¬audioTag <+: line.text := by
  cases line with
  | conn c =>
    rintro ⟨t, ht⟩
    exact absurd (List.cons.inj ht).1 (by decide)
  | other line =>
    exact fun h => line.not_media ((by decide : ascii "m=" <+: audioTag).trans h)

lemma MediaSection.audioTag_prefix_iff (s : MediaSection) :
    audioTag <+: s.text ↔ s.media = ascii "audio" := by
  have htag : audioTag = ascii "m=" ++ (ascii "audio" ++ [32]) := by decide
  rw [htag, text, List.prefix_append_right_inj]
  constructor
  · rintro ⟨t, ht⟩
    rw [List.append_assoc, List.singleton_append] at ht
    have hmedia : (32 : UInt8) ∉ s.media := fun h => (s.media_plain 32 h).1 rfl
    exact (append_cons_inj (by decide) hmedia ht).1.symm
  · intro h
    rw [h, ← List.singleton_append, ← List.append_assoc]
    exact List.prefix_append _ _

lemma taggedValue_of_forall {tag : Bytes} {ls : List Bytes} (h : ∀ line ∈ ls, ¬tag <+: line) :
    taggedValue tag ls = none := by
  rw [taggedValue, List.find?_eq_none.mpr, Option.map_none]
  exact fun line hline hpre => h line hline (List.isPrefixOf_iff_prefix.mp hpre)

lemma MediaSection.isdigit_head (s : MediaSection) : isdigit ((s.port ++ s.rest).headD 0) :=
  isdigit_headD s.port_digits s.port_ne_nil s.rest

lemma MediaSection.leadingDigits_port (s : MediaSection) :
    leadingDigits (s.port ++ s.rest) = leadingDigits s.port := by
  rcases hrest : s.rest with _ | ⟨c, rest⟩
  · rw [List.append_nil]
  · have hc : isdigit c = false := by
      have hhead := s.rest_head
      rw [hrest, List.head?_cons, Option.some.injEq, Option.some.injEq] at hhead
      rcases hhead with rfl | rfl <;> decide
    exact leadingDigits_line hc _ _

lemma SdpBody.taggedValue_audio (b : SdpBody) :
    taggedValue audioTag b.lines = b.audio.map fun s => s.port ++ s.rest := by
  have hlines : ∀ ls : List SdpLine, taggedValue audioTag (ls.map SdpLine.text) = none := by
    intro ls
    refine taggedValue_of_forall fun line hline => ?_
    obtain ⟨l, -, rfl⟩ := List.mem_map.mp hline
    exact l.not_audio
  have hsections : taggedValue audioTag (b.sections.flatMap MediaSection.lines) =
      b.audio.map fun s => s.port ++ s.rest := by
    rw [audio]
    induction b.sections with
    | nil => rfl
    | cons s sections ih =>
      rw [List.flatMap_cons, taggedValue_append, MediaSection.lines, taggedValue_cons, hlines, ih]
      by_cases hmedia : s.media = ascii "audio"
      · have htext : s.text = audioTag ++ (s.port ++ s.rest) := by
          rw [MediaSection.text, hmedia]
          rfl
        rw [if_pos (s.audioTag_prefix_iff.mpr hmedia), Option.some_or, htext,
          lineValue_append _ (ne_blank_of_isdigit s.isdigit_head),
          List.find?_cons_of_pos (by simpa using hmedia), Option.map_some]
      · rw [if_neg fun h => hmedia (s.audioTag_prefix_iff.mp h), Option.none_or,
          List.find?_cons_of_neg (by simpa using hmedia)]
  rw [lines, taggedValue_append, hlines, Option.none_or, hsections]

/-! ### What is registered -/

/-- The flows that a list of assignments registers. -/
def registrations (es : List ElementWrite) : List (UInt32 × UInt16) :=
  es.filterMap fun
    | .addIpPort addr port => some (addr, port)
    | _ => none

/-- `parse_sdp` registers what `get_ip_port_from_sdp` returns. -/
lemma registrations_parseSdp (verbosity : ℤ) (optT38only : Bool) (sdp : Bytes) (sdplen : ℕ) :
    registrations (parseSdp verbosity optT38only sdp sdplen) =
      (getIpPortFromSdp sdp sdplen).toList := by
  have hattributes : registrations (sdpAttributes optT38only sdp sdplen) = [] := by
    unfold sdpAttributes
    split <;> split <;> rfl
  rw [parseSdp_eq]
  rcases getIpPortFromSdp sdp sdplen with _ | ⟨addr, port⟩
  · dsimp only
    split
    · rfl
    · exact hattributes
  · exact congrArg (List.cons (addr, port)) hattributes

/-- What `get_ip_port_from_sdp` returns for a body with an audio section. -/
lemma SdpBody.getIpPortFromSdp_text {b : SdpBody} {s : MediaSection} (hs : b.audio = some s)
    {text : Bytes} (htext : b.WrittenAs text) (behind : Bytes) :
    getIpPortFromSdp (text ++ behind) text.length =
      if s.portNumber = 0 then none
      else some ((b.firstConnection.map Connection.readAddr).getD 0xffffffff, s.portNumber) := by
  have hvalue : ∀ tag : Bytes, tag ≠ [] →
      taggedValue tag (sdpLines (text ++ behind) text.length) = taggedValue tag b.lines := by
    intro tag hne
    have hlen : text.length ≤ (text ++ behind).length := by
      rw [List.length_append]
      exact Nat.le_add_right _ _
    rw [sdpLines, buffer_of_le hlen, List.take_left, ← taggedValue_filter hne, ← htext, fullLines]
  have hconn : connValue (text ++ behind) text.length = b.firstConnection.map Connection.text := by
    rw [connValue, hvalue _ (by decide), b.taggedValue_conn]
  have hmedia : mediaValue (text ++ behind) text.length = some (s.port ++ s.rest) := by
    rw [mediaValue, hvalue _ (by decide), b.taggedValue_audio, hs, Option.map_some, Option.some_or]
  have hport := s.port_lt
  have hatoi : UInt16.ofInt (atoi (mediaText (text ++ behind) text.length)) = s.portNumber := by
    rw [atoi_mediaText hmedia s.isdigit_head (by rw [s.leadingDigits_port]; omega),
      s.leadingDigits_port, UInt16.ofInt, MediaSection.portNumber]
    congr 1
    omega
  have haddr : inetAddr (cstr (((b.firstConnection.map Connection.text).getD []).take 19)) =
      (b.firstConnection.map Connection.readAddr).getD 0xffffffff := by
    rcases b.firstConnection with _ | c
    · decide
    · exact c.inetAddr_text
  rw [getIpPortFromSdp_eq, hconn, haddr]
  simp only [← port_eq_zero_iff, hatoi]

/-- A body with a connection in force for a section has a first connection. -/
lemma SdpBody.exists_firstConnection {b : SdpBody} {s : MediaSection} (hs : b.audio = some s)
    {c : Connection} (hc : b.connection s = some c) : ∃ c', b.firstConnection = some c' := by
  rw [firstConnection]
  rcases hsession : connectionOf b.session with _ | c'
  · rw [connection, hsession, Option.or_none] at hc
    rw [Option.none_or, ← Option.isSome_iff_exists, List.findSome?_isSome_iff]
    exact ⟨s, List.mem_of_find?_eq_some hs, by rw [hc]; rfl⟩
  · exact ⟨c', rfl⟩

/-- **The registered flow** is that of the first audio section if and only if its port is not zero
and `inet_addr` reads the address in force for it in the first connection line of the body. -/
theorem media_flow_iff (b : SdpBody) (s : MediaSection) (c : Connection) (hs : b.audio = some s)
    (hc : b.connection s = some c) {text : Bytes} (htext : b.WrittenAs text) (behind : Bytes)
    (verbosity : ℤ) (optT38only : Bool) :
    registrations (parseSdp verbosity optT38only (text ++ behind) text.length) =
        [(c.quad.addr, s.portNumber)] ↔
      s.portNumber ≠ 0 ∧ ∃ c', b.firstConnection = some c' ∧ c'.readAddr = c.quad.addr := by
  obtain ⟨c', hc'⟩ := SdpBody.exists_firstConnection hs hc
  rw [registrations_parseSdp, SdpBody.getIpPortFromSdp_text hs htext, hc', Option.map_some,
    Option.getD_some]
  by_cases hport : s.portNumber = 0
  · simp [hport]
  · simp [hport]

/-- A number below ten. -/
def Octet.ofDigit (d : Fin 10) : Octet where
  digits := [UInt8.ofNat (48 + d)]
  isdigit_of_mem := by revert d; decide +kernel
  ne_nil := List.cons_ne_nil _ _
  length_le := Nat.le_of_ble_eq_true rfl
  canonical := by revert d; decide +kernel
  value_le := by revert d; decide +kernel

/-- The connection line of a host in 1.0.0.0/24. -/
def hostLine (d : Fin 10) : Connection where
  quad := ⟨.ofDigit 1, .ofDigit 0, .ofDigit 0, .ofDigit d⟩
  suffix := []
  suffix_slash := Or.inl rfl
  suffix_eol := by simp

/-- An audio section with the port 4000. -/
def audioSection (own : List SdpLine) : MediaSection where
  media := ascii "audio"
  port := ascii "4000"
  rest := ascii " RTP/AVP 0"
  own := own
  media_plain := by simp [ascii, isEol]
  port_digits := by simp [ascii, isdigit]
  port_ne_nil := by decide
  port_lt := by decide
  rest_head := by decide
  rest_eol := by simp [ascii, isEol]

/-- A session with an audio section. -/
def audioBody (own : List SdpLine) : SdpBody where
  session := [.conn (hostLine 1)]
  sections := [audioSection own]

/-- The media of a call without section-level addresses. -/
theorem media_flow_iff_session :
    registrations (parseSdp 0 false (ascii "\r\n\r\n" ++ (audioBody []).render ++ [0])
        (ascii "\r\n\r\n" ++ (audioBody []).render).length) =
      [((hostLine 1).quad.addr, (audioSection []).portNumber)] :=
  (media_flow_iff (audioBody []) (audioSection []) (hostLine 1) rfl rfl
    ((audioBody []).writtenAs_render (by simp [ascii, isEol])) [0] 0 false).mpr
    ⟨by decide, hostLine 1, rfl, rfl⟩

/-- An address of the section loses against that of the session. -/
theorem media_flow_false :
    ¬∀ (b : SdpBody) (s : MediaSection) (c : Connection) (text behind : Bytes) (verbosity : ℤ)
      (optT38only : Bool), b.audio = some s → s.portNumber ≠ 0 → b.connection s = some c →
        b.WrittenAs text →
        registrations (parseSdp verbosity optT38only (text ++ behind) text.length) =
          [(c.quad.addr, s.portNumber)] := by
  intro h
  have hflow := h (audioBody [.conn (hostLine 2)]) (audioSection [.conn (hostLine 2)]) (hostLine 2)
    (ascii "\r\n\r\n" ++ (audioBody [.conn (hostLine 2)]).render) [0] 0 false rfl (by decide) rfl
    (SdpBody.writtenAs_render _ (by simp [ascii, isEol]))
  exact absurd hflow (by decide +kernel)

end PcapSipDump
