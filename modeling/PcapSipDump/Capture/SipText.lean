import PcapSipDump.CallTable.Ops

/-!
# Reading SIP and SDP text

`gettag` of `pcapsipdump_strlib.cpp` and the functions of the capture loop that are built on
it.  A pointer into the payload is its distance from the start of the payload, and a payload
is given with everything that follows it in memory, since several of these functions read a
C string beyond the length they are told.
-/

namespace PcapSipDump

open Lib.CString

/-- `get_method`: the method, or `none` when the payload does not start like a request.  A NUL
before the first blank fails the test for capitals. -/
def getMethod (data : Bytes) : Option Bytes :=
  let sipMethod := ((data ++ List.replicate 9 0).take 9).takeWhile (· ≠ 32)
  if sipMethod.all isupper then some sipMethod else none

/-- The payload starts with the version of a SIP response. -/
def isSipResponse (data : Bytes) : Bool := data.take 8 = ascii "SIP/2.0 "

/-- A carriage return or a line feed. -/
def isEol (c : UInt8) : Bool := c = 13 || c = 10

/-- The loop of `gettag` with `r` at a position of the buffer.  Every round moves `r` on. -/
def gettagFrom (buf tag : Bytes) : ℕ → ℕ → Option (ℕ × ℕ)
  | 0, _ => none
  | fuel + 1, r =>
      match memmem (buf.drop r) tag with
      | none => none
      | some k =>
          if r + k = 0 ∨ isEol (buf.getD (r + k - 1) 0) then
            let value := r + k + tag.length
            let start := value + ((buf.drop value).takeWhile (· = 32)).length
            let line := (buf.drop start).takeWhile fun c => !isEol c
            if start + line.length < buf.length then some (start, line.length)
            -- an unterminated line is not a usable value
            else gettagFrom buf tag fuel start
          else gettagFrom buf tag fuel (r + k + 1)

/-- The bytes at `ptr` that lie in front of `ptr + len`.  Where the length is a wrapped difference,
`ptr + len` wraps back to an address before `ptr`, and there are none. -/
def buffer (s : Bytes) (len : ℕ) : Bytes :=
  if 2 ^ 63 ≤ len ∧ s.length < len then [] else s.take len

/-- `gettag`: where the value of the tag starts and how long it is. -/
def gettag (s : Bytes) (len : ℕ) (tag : Bytes) : Option (ℕ × ℕ) :=
  let buf := buffer s len
  if 1 < len then gettagFrom buf tag (buf.length + 1) 0 else none

lemma buffer_of_lt {len : ℕ} (h : len < 2 ^ 63) (s : Bytes) : buffer s len = s.take len :=
  if_neg fun hwraps => absurd h (not_lt.mpr hwraps.1)

/-- A length of bytes that are there does not wrap. -/
lemma buffer_of_le {s : Bytes} {len : ℕ} (h : len ≤ s.length) : buffer s len = s.take len :=
  if_neg fun hwraps => absurd h (not_le.mpr hwraps.2)

lemma buffer_prefix_self (s : Bytes) (len : ℕ) : buffer s len <+: s := by
  unfold buffer
  split
  · exact List.nil_prefix
  · exact List.take_prefix _ _

lemma length_buffer_le (s : Bytes) (len : ℕ) : (buffer s len).length ≤ len := by
  unfold buffer
  split
  · exact Nat.zero_le len
  · exact List.length_take_le _ _

/-- The value that `gettag` has found. -/
def slice (s : Bytes) (v : ℕ × ℕ) : Bytes := (s.drop v.1).take v.2

/-- `gettag(..) ? : gettag(..)` for a header and its compact form. -/
def getHeader (s : Bytes) (len : ℕ) (name compact : Bytes) : Option (ℕ × ℕ) :=
  gettag s len name <|> gettag s len compact

/-- The length of the data as `get_sip_peername` gets it: an `int`, which `gettag` takes as an
`unsigned long`. -/
def intLen (len : ℕ) : ℕ := ((len : ℤ).bmod (2 ^ 32) % 2 ^ 64).toNat

/-- The user part that `get_sip_peername` looks for in the value of a tag. -/
def peername (value : Bytes) : Option Bytes :=
  match memmem value (ascii "sip:") <|> memmem value (ascii "tel:"),
      memmem value (ascii "@") <|> memmem value (ascii ">") with
  | some r, some r2 => if r2 ≤ r + 4 then none else some (slice value (r + 4, r2 - (r + 4)))
  | _, _ => none

/-- `get_sip_peername`: whether it succeeds, and the buffer it has written to. -/
def getSipPeername {n : ℕ} (data : Bytes) (dataLen : ℕ) (tag : Bytes) (buf : Buf n) :
    Bool × Buf n :=
  let value := ((gettag data (intLen dataLen) tag).map (slice data)).getD []
  match peername value with
  | some name => (true, copyTerminated buf name)
  | none => (false, copyTerminated buf (ascii "empty"))

/-- A local array `char x[n] = ""` after `get_sip_peername` for a tag and, if that fails, for
its compact form. -/
def sipPeername (n : ℕ) (data : Bytes) (dataLen : ℕ) (tag compact : Bytes) : Buf n :=
  match getSipPeername data dataLen tag (fun _ => 0) with
  | (true, buf) => buf
  | (false, buf) => (getSipPeername data dataLen compact buf).2

/-! ### SDP -/

/-- `strtoul` with base 0 as `inet_addr` calls it, at a digit: the value and what follows it. -/
def parseNumber : Bytes → ℕ × Bytes
  | 48 :: x :: rest =>
      let hex (c : UInt8) : Option ℕ :=
        if isdigit c then some (c.toNat - 48)
        else if 97 ≤ tolower c ∧ tolower c ≤ 102 then some ((tolower c).toNat - 87)
        else none
      let value (b : ℕ) (ds : Bytes) := ds.foldl (fun v c => b * v + (hex c).getD 0) 0
      let hexDigits := rest.takeWhile fun c => (hex c).isSome
      if tolower x = 120 ∧ hexDigits ≠ [] then
        (value 16 hexDigits, rest.drop hexDigits.length)
      else
        let octal := (x :: rest).takeWhile fun c => 48 ≤ c && c ≤ 55
        (value 8 octal, (x :: rest).drop octal.length)
  | s => (leadingDigits s, s.drop (s.takeWhile isdigit).length)

/-- The loop of `inet_addr` over the parts of an address, with the parts before. -/
def inetParts : ℕ → List ℕ → Bytes → Option (List ℕ)
  | 0, _, _ => none
  | fuel + 1, parts, s =>
      if isdigit (s.headD 0) then
        match parseNumber s with
        | (value, rest) =>
            if rest.headD 0 = 46 then
              if 255 < value then none else inetParts fuel (parts ++ [value]) rest.tail
            else if rest.headD 0 = 0 ∨ isspace (rest.headD 0) then some (parts ++ [value])
            else none
      else none

/-- `inet_addr`: one to four numbers separated by dots, the last one filling the bytes that are
left; the result is in network byte order, all ones for a string that is no address. -/
def inetAddr (s : Bytes) : UInt32 :=
  match inetParts 4 [] s with
  | some parts =>
      let last := parts.getLastD 0
      let free := 5 - parts.length
      if last < 256 ^ free then
        let host := (parts.dropLast.foldl (fun v p => 256 * v + p) 0) * 256 ^ free + last
        UInt32.ofNat (host / 256 ^ 3 + host / 256 ^ 2 % 256 * 256 + host / 256 % 256 * 256 ^ 2 +
          host % 256 * 256 ^ 3)
      else 0xffffffff
  | none => 0xffffffff

/-- `get_ip_port_from_sdp`.  With a 64-bit `long` the value of `inet_addr` is never -1, so a
string that is no address goes on as 255.255.255.255; a missing tag leaves `s1` empty. -/
def getIpPortFromSdp (sdp : Bytes) (sdplen : ℕ) : Option (UInt32 × UInt16) :=
  let s1 := ((gettag sdp sdplen (ascii "c=IN IP4 ")).map (slice sdp)).getD []
  let addr := inetAddr (cstr (s1.take 19))
  let media := (gettag sdp sdplen (ascii "m=audio ")).filter fun v => v.2 ≠ 0
  match (media <|> gettag sdp sdplen (ascii "m=image ")).filter fun v => v.2 ≠ 0 with
  | none => none
  | some v =>
      let port := UInt16.ofInt (atoi (sdp.drop v.1))
      if port = 0 then none else some (addr, port)

/-- `sdp_get_rtpmap_event` -/
def sdpGetRtpmapEvent (sdp : Bytes) : UInt8 :=
  let te := ascii " telephone-event/"
  match gettag sdp ((cstr sdp).length % 2 ^ 32) (ascii "a=rtpmap:") with
  | none => 0
  | some v =>
      let s := sdp.drop v.1
      if strncmpEq te.length te (s.drop 1) ∨ strncmpEq te.length te (s.drop 2) ∨
          strncmpEq te.length te (s.drop 3) then
        if atol s % 2 ^ 64 ≤ 255 then UInt8.ofInt (atol s) else 0
      else 0

/-- The assignments of `parse_sdp` to the element, in their order. -/
def parseSdp (verbosity : ℤ) (optT38only : Bool) (sdp : Bytes) (sdplen : ℕ) :
    List ElementWrite :=
  let rtpmapEvent := sdpGetRtpmapEvent sdp
  let rest :=
    (if rtpmapEvent = 0 then [] else [ElementWrite.rtpmapEvent rtpmapEvent]) ++
      (if optT38only ∧ (memmem (sdp.take sdplen) (ascii "udptl t38")).isSome then
        [ElementWrite.hadT38] else [])
  match getIpPortFromSdp sdp sdplen with
  | some (addr, port) => .addIpPort addr port :: rest
  | none => if 2 ≤ verbosity then [] else rest

/-- The assignments to the element of the call that the body of the message leads to: those of
`parse_sdp` when the Content-Type is one of the two that are parsed. -/
def parseBody (verbosity : ℤ) (optT38only : Bool) (data : Bytes) (dataLen : ℕ) :
    List ElementWrite :=
  match getHeader data dataLen (ascii "Content-Type:") (ascii "c:"),
      strstr data (ascii "\r\n\r\n") with
  | some v, some sdp =>
      let s := data.drop v.1
      let isSdp := strncasecmpEq v.2 s (ascii "application/sdp")
      let isMultipart := strncasecmpEq (min v.2 25) s (ascii "multipart/mixed;boundary=")
      if 0 < v.2 ∧ (isSdp ∨ isMultipart) then
        parseSdp verbosity optT38only (data.drop sdp)
          (UInt64.ofNat dataLen - UInt64.ofNat sdp).toNat
      else []
  | _, _ => []

/-! ### The parts of an SDP body -/

/-- The assignments of `parse_sdp` other than the registration of an address. -/
def sdpAttributes (optT38only : Bool) (sdp : Bytes) (sdplen : ℕ) : List ElementWrite :=
  (if sdpGetRtpmapEvent sdp = 0 then [] else [ElementWrite.rtpmapEvent (sdpGetRtpmapEvent sdp)]) ++
    (if optT38only ∧ (memmem (sdp.take sdplen) (ascii "udptl t38")).isSome then
      [ElementWrite.hadT38] else [])

lemma parseSdp_eq (verbosity : ℤ) (optT38only : Bool) (sdp : Bytes) (sdplen : ℕ) :
    parseSdp verbosity optT38only sdp sdplen = match getIpPortFromSdp sdp sdplen with
      | some (addr, port) => .addIpPort addr port :: sdpAttributes optT38only sdp sdplen
      | none => if 2 ≤ verbosity then [] else sdpAttributes optT38only sdp sdplen := rfl

/-- The SDP that a message's body is parsed as, and its length. -/
def parsedSdp (data : Bytes) (dataLen : ℕ) : Option (Bytes × ℕ) :=
  match getHeader data dataLen (ascii "Content-Type:") (ascii "c:"),
      strstr data (ascii "\r\n\r\n") with
  | some v, some sdp =>
      let s := data.drop v.1
      let isSdp := strncasecmpEq v.2 s (ascii "application/sdp")
      let isMultipart := strncasecmpEq (min v.2 25) s (ascii "multipart/mixed;boundary=")
      if 0 < v.2 ∧ (isSdp ∨ isMultipart) then
        some (data.drop sdp, (UInt64.ofNat dataLen - UInt64.ofNat sdp).toNat)
      else none
  | _, _ => none

lemma parseBody_eq (verbosity : ℤ) (optT38only : Bool) (data : Bytes) (dataLen : ℕ) :
    parseBody verbosity optT38only data dataLen = match parsedSdp data dataLen with
      | some (sdp, sdplen) => parseSdp verbosity optT38only sdp sdplen
      | none => [] := by
  unfold parseBody parsedSdp
  rcases getHeader data dataLen (ascii "Content-Type:") (ascii "c:") with _ | v
  · rfl
  · rcases strstr data (ascii "\r\n\r\n") with _ | sdp
    · rfl
    · simp only
      split <;> rfl

end PcapSipDump
