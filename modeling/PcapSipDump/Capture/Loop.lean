import PcapSipDump.Capture.FileName
import PcapSipDump.Capture.Packet
import PcapSipDump.Capture.SipText
import PcapSipDump.Capture.World

/-!
# The capture loop

The loop of `main` over the captured packets, from the periodic cleanup to the SIP branch, in
the build without `USE_CALLTABLE_CACHE`.  `capture` is one round of the loop.  Signal handlers
and the end of the input run one more cleanup; the inputs of the machine `loop` therefore are
packets and cleanups at any time.
-/

namespace PcapSipDump

open Lib Lib.CString

/-- `opt_rtpsave` -/
inductive RtpSave where
  | none
  | rtp
  | rtpRtcp
  | rtpEvent
deriving DecidableEq

/-- The settings that `main` takes from the command line, the link type of the capture, and two
properties of the build.  A filter is the set of strings that its expression matches. -/
structure Options where
  verbosity : ℤ := 0
  optT38only : Bool := false
  optRtpsave : RtpSave := .rtpRtcp
  optCallSkipN : ℤ := 1
  optPacketbuffered : Bool := false
  optAbsoluteTimeout : ℤ := 2147483647
  optFntemplate : Bytes
  numberFilter : Option (Bytes → Bool) := none
  methodFilter : Bytes → Bool :=
    fun m => m = ascii "INVITE" || m = ascii "OPTIONS" || m = ascii "REGISTER"
  dlt : Dlt := .en10mb
  useTcp : Bool := false
  libbsd : Bool := true
  /-- `main` rejects other arguments of `-l`. -/
  callSkipN_pos : 1 ≤ optCallSkipN := by decide

/-- The state of the capture loop between two packets. -/
structure State where
  world : World
  lastCleanup : UInt64 := 0
  callSkipCnt : ℤ := 1

/-- The capture loop before the first packet. -/
def Options.start (o : Options) : State :=
  { world := ⟨Calltable.create o.optT38only o.optAbsoluteTimeout, []⟩ }

variable (o : Options) (host : Host)

/-! ### The RTP branches -/

/-- `rtp_port_mask` -/
def RtpSave.portMask : RtpSave → UInt16
  | .rtpRtcp => 0xfffe
  | _ => 0xffff

/-- The SSRC that the lookups are made with. -/
def packetSsrc (m : Bytes) (ip : ℕ) : UInt32 :=
  getSsrc m (dataPos m ip)
    (o.optRtpsave = .rtpRtcp && sourcePort m ip &&& 1 ≠ 0 && destPort m ip &&& 1 ≠ 0)

/-- The two lookups of an RTP packet, by its destination and then by its source. -/
def rtpLookup (m : Bytes) (ip : ℕ) (w : World) : Option Flow × World :=
  if o.optRtpsave = .none then (none, w)
  else
    match w.findIpPortSsrc (hdaddr m ip) (destPort m ip &&& o.optRtpsave.portMask)
        (packetSsrc o m ip) with
    | (some f, w) => (some f, w)
    | (none, w) =>
        w.findIpPortSsrc (hsaddr m ip) (sourcePort m ip &&& o.optRtpsave.portMask)
          (packetSsrc o m ip)

/-- `opt_rtpsave != RTPSAVE_RTPEVENT || data[1] == ce->rtpmap_event`.  The payload is an array
of signed characters. -/
def savesPayload (data : Bytes) (e : CalltableElement) : Bool :=
  o.optRtpsave ≠ .rtpEvent || (u8 data 1 = e.rtpmapEvent && u8 data 1 < 128)

/-- The branch for a packet of the flow that the lookups have found. -/
def rtpBranch (p : Packet) (ip : ℕ) (f : Flow) (w : World) : World :=
  if savesPayload o (p.mem.drop (dataPos p.mem ip)) (w.slot f.1) then
    w.rtpDump f.1 p.record o.optPacketbuffered
  else w

/-! ### The SIP branch -/

/-- What the SIP branch reads from a message. -/
structure SipMessage where
  /-- `sip_method`, empty for a response. -/
  method : Bytes
  /-- The Call-ID, unless the message has none. -/
  callId : Option Bytes
  caller : Buf 256
  called : Buf 256
  /-- The assignments to the element that the body leads to. -/
  body : List ElementWrite

/-- The C string in the array `callid`. -/
def SipMessage.callidStr (msg : SipMessage) : Bytes :=
  let callid : Buf 512 := copyTerminated (fun _ => 0) (msg.callId.getD [])
  cstr callid.toBytes

/-- `get_method(..) || !memcmp(data, "SIP/2.0 ", ..)`: the method of a SIP message. -/
def sipMethod (data : Bytes) : Option Bytes :=
  getMethod data <|> if isSipResponse data then some [] else none

/-- The packet after `data[datalen]=0`.  The address that is written to is the end of the
shorter of what was captured and what was on the wire. -/
def Packet.terminate (p : Packet) : Packet where
  ts := p.ts
  len := p.len
  bytes := (p.mem.set (min p.len.toNat p.caplen) 0).take p.caplen
  beyond := (p.mem.set (min p.len.toNat p.caplen) 0).drop p.caplen
  caplen_lt := (List.length_take_le _ _).trans_lt p.caplen_lt

/-- The SIP message with the method `method` in a packet that has been terminated. -/
def readSip (p : Packet) (data : ℕ) (method : Bytes) : SipMessage :=
  let s := p.mem.drop data
  let len := dataLen p data
  { method
    callId := (getHeader s len (ascii "Call-ID:") (ascii "i:")).map (slice s)
    caller := sipPeername 256 s len (ascii "From:") (ascii "f:")
    called := sipPeername 256 s len (ascii "To:") (ascii "t:")
    body := parseBody o.verbosity o.optT38only s len }

/-- The number filter lets the message through. -/
def numberFilterMatched (msg : SipMessage) : Bool :=
  match o.numberFilter with
  | none => true
  | some regex => regex (cstr msg.caller.toBytes) || regex (cstr msg.called.toBytes)

/-- The path of the file for a call. -/
def fileName (msg : SipMessage) (ts : ℤ) : Bytes :=
  cstr (host.strftime (expandDirTemplate o.optFntemplate (cstr msg.caller.toBytes)
    (cstr msg.called.toBytes) msg.callidStr) ts)

/-- The file of a call that has just been added with index `i`: none if the method does not
match or the call is skipped, otherwise a new one. -/
def newCall (msg : SipMessage) (callId : Bytes) (ts : ℤ) (i : ℕ) (s : State) : State :=
  if o.methodFilter msg.method then
    if s.callSkipCnt - 1 > 0 then
      { s with world := s.world.noFile i, callSkipCnt := s.callSkipCnt - 1 }
    else
      let fn := fileName o host msg ts
      { s with
        world := s.world.openFile host o.libbsd i callId fn
          (if 47 ∈ fn then some (dirname fn) else none)
        callSkipCnt := o.optCallSkipN }
  else { s with world := s.world.noFile i }

/-- The index of the message's call, which is added if it is not there. -/
def findOrAdd (msg : SipMessage) (ts : ℤ) (s : State) : Option ℕ × State :=
  match msg.callId with
  | none => (none, s)
  | some callId =>
      match s.world.ct.findByCallId callId with
      | some i => (some i, s)
      | none =>
          if numberFilterMatched o msg then
            let (i, w) := s.world.add callId msg.caller.toBytes msg.called.toBytes ts
            (some i, newCall o host msg callId ts i { s with world := w })
          else (none, s)

/-- `strcmp(sip_method,"BYE")==0` -/
def SipMessage.isBye (msg : SipMessage) : Bool := msg.method = ascii "BYE"

/-- The part of the SIP branch for the call with index `i`, in the packet that has been
terminated. -/
def sipCall (p : Packet) (ip i : ℕ) (msg : SipMessage) (w : World) : World :=
  let w := if msg.isBye then w.write i .bye else w
  let w := msg.body.foldl (fun w e => w.write i e) w
  let w := w.sipDump i p.record msg.isBye o.optPacketbuffered
  let w := if isFirstFragment4 p.mem ip then w.addIpfrag (addrAddrId4 p.mem ip) i else w
  if isFragment6 p.mem ip then w.addIpfrag (addrAddrId6 p.mem ip) i else w

/-- The SIP branch, in the packet that has been terminated. -/
def sipBranch (p : Packet) (ip data : ℕ) (method : Bytes) (s : State) : State :=
  let msg := readSip o p data method
  match findOrAdd o host msg p.ts s with
  | (some i, s) => { s with world := sipCall o p ip i msg s.world }
  | (none, s) => s

/-! ### One packet -/

/-- The branch for admitted packets. -/
def admitted (p : Packet) (ip : ℕ) (s : State) : State :=
  match rtpLookup o p.mem ip s.world with
  | (some f, w) => { s with world := rtpBranch o p ip f w }
  | (none, w) =>
      match sipMethod (p.mem.drop (dataPos p.mem ip)) with
      | some method =>
          sipBranch o host p.terminate ip (dataPos p.mem ip) method { s with world := w }
      | none => { s with world := w }

/-- The dispatch on the kind of packet. -/
def dispatch (p : Packet) (s : State) : State :=
  match headerIp o.dlt p.mem with
  | none => s
  | some ip =>
      if isLaterFragment4 p.mem ip then
        { s with
          world := s.world.fragment (addrAddrId4 p.mem ip) p.record (isLastFragment4 p.mem ip)
            o.optPacketbuffered }
      else if isLaterFragment6 p.mem ip then
        { s with
          world := s.world.fragment (addrAddrId6 p.mem ip) p.record (isLastFragment6 p.mem ip)
            o.optPacketbuffered }
      else if isAdmitted o.useTcp o.dlt p.caplen p.mem ip then admitted o host p ip s
      else s

/-- `pkt_header->ts.tv_sec-last_cleanup>15`, a comparison of unsigned numbers. -/
def cleanupDue (ts : ℤ) (lastCleanup : UInt64) : Bool := UInt64.ofInt ts - lastCleanup > 15

/-- The cleanup at the top of the loop. -/
def State.periodicCleanup (s : State) (ts : ℤ) : State :=
  if cleanupDue ts s.lastCleanup then
    { s with world := s.world.cleanup ts, lastCleanup := UInt64.ofInt ts }
  else s

/-- One round of the capture loop. -/
def capture (p : Packet) (s : State) : State := dispatch o host p (s.periodicCleanup p.ts)

/-- What the capture loop is run on: a packet, or a cleanup by a signal handler or at the end
of the input. -/
inductive Input where
  | packet (p : Packet)
  | cleanup (currtime : ℤ)

/-- The time of the cleanup pass that an input starts with, if there is one. -/
def passTime (s : State) : Input → Option ℤ
  | .packet p => if cleanupDue p.ts s.lastCleanup then some p.ts else none
  | .cleanup currtime => some currtime

/-- The state after the cleanup pass that an input starts with. -/
def afterPass (s : State) : Input → State
  | .packet p => s.periodicCleanup p.ts
  | .cleanup currtime => { s with world := s.world.cleanup currtime }

/-- The capture loop as a machine. -/
def loop : Machine State Input where
  next s
    | .packet p => capture o host p s
    | .cleanup currtime => { s with world := s.world.cleanup currtime }
  allowed _ _ := True

/-! ### A small capture

A setting and messages on which runs of the loop are evaluated. -/

/-- The default settings, with a short template and raw IP packets. -/
def Options.raw : Options := { optFntemplate := ascii "%i.pcap", dlt := .raw }

/-- A request with a Call-ID and a body, which is SDP unless it is empty. -/
def sipRequest (method callId : String) (body : Bytes) : Bytes :=
  ascii method ++ ascii " sip:b@h SIP/2.0\r\nFrom: <sip:a@h>\r\nTo: <sip:b@h>\r\nCall-ID: " ++
    ascii callId ++ ascii "\r\nContent-Type: application/sdp\r\n\r\n" ++ body

/-- SDP with an address and an audio port. -/
def sdpBody (addr port : String) : Bytes :=
  ascii "c=IN IP4 " ++ ascii addr ++ ascii "\r\nm=audio " ++ ascii port ++ ascii " RTP/AVP 0\r\n"

/-- An INVITE from 10.0.0.1 to 10.0.0.2, not fragmented. -/
def invite (callId : String) : Bytes :=
  ipv4Udp 1 0 [10, 0, 0, 1] [10, 0, 0, 2] 5060 5060
    (sipRequest "INVITE" callId (sdpBody "10.0.0.1" "4000"))

/-- A packet with an RTP header from 10.0.0.9 to 10.0.0.1, not fragmented. -/
def media (dest : UInt16) (ssrc : UInt8) : Bytes :=
  ipv4Udp 2 0 [10, 0, 0, 9] [10, 0, 0, 1] 6000 dest [0x80, 0, 0, 0, 0, 0, 0, 0, 0, 0, 0, ssrc]

end PcapSipDump
