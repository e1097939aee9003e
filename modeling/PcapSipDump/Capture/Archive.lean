import PcapSipDump.Capture.Sampling
import PcapSipDump.Lib.FirstDistinct
import PcapSipDump.Lib.Simulation

/-!
# The archive of calls

What the capture loop is for, without the table, its indices, its arrays and its counters.  An
archive knows each current call by the key of its Call-ID, and the whole history of the call: when
it began, its file, its messages and its media.  Everything that the program keeps in an element is
read off this history.

A packet is attributed to a call by its Call-ID, by the flows that the messages of the call have
announced, or by the datagram that a message has begun.  Which of several calls gets a media packet
that all of them take, and whether a file can be opened, is left open: `Archive.Hears` is a
relation.  `Provenance` says what is in the files: each record belongs to the call for which its
file was opened.
-/

namespace PcapSipDump

open Lib Lib.CString

/-- The address and the port of a flow. -/
abbrev IpPort := UInt32 × UInt16

/-- What identifies a call. -/
abbrev CallKey := ℕ × Bytes

variable {o : Options} {p : Packet} {msg : SipMessage}

/-! ### What a packet is -/

/-- What can be told of a packet without regard to the calls. -/
inductive Reading where
  /-- The packet is passed over. -/
  | other
  /-- A fragment other than the first one of its datagram. -/
  | fragment (aai : AddrAddrId) (last : Bool)
  /-- A payload: the flows to look for, the SSRC and the payload type, for the case that it is
  media; the message, if it is one; and the datagram, if it is not complete. -/
  | payload (flows : List IpPort) (ssrc : UInt32) (payloadType : UInt8)
      (message : Option SipMessage) (datagram : Option AddrAddrId)

/-- The flows that a packet is looked up by, in this order. -/
def lookupFlows (o : Options) (m : Bytes) (ip : ℕ) : List IpPort :=
  if o.optRtpsave = .none then [] else [dstPair o m ip, srcPair o m ip]

/-- The reading of a packet. -/
def reading (o : Options) (p : Packet) : Reading :=
  match laterFragment o p with
  | some (aai, last) => .fragment aai last
  | none =>
      match headerIp o.dlt p.mem with
      | none => .other
      | some ip =>
          if isAdmitted o.useTcp o.dlt p.caplen p.mem ip then
            .payload (lookupFlows o p.mem ip) (packetSsrc o p.mem ip)
              (u8 (p.mem.drop (dataPos p.mem ip)) 1)
              ((sipMethod (p.mem.drop (dataPos p.mem ip))).map
                (readSip o p.terminate (dataPos p.mem ip)))
              (recordKey p.terminate.mem ip)
          else .other

/-! ### Calls -/

/-- The flow that an assignment registers. -/
def ElementWrite.flow : ElementWrite → Option IpPort
  | .addIpPort addr port => some (addr, port)
  | _ => none

/-- The payload type that an assignment announces for events. -/
def ElementWrite.event : ElementWrite → Option UInt8
  | .rtpmapEvent pt => some pt
  | _ => none

/-- The assignment announces T.38. -/
def ElementWrite.isT38 : ElementWrite → Bool
  | .hadT38 => true
  | _ => false

/-- The flows that messages announce: the first four different ones. -/
def announcedFlows (msgs : List SipMessage) : List IpPort :=
  firstDistinct maxIpPerCall ((msgs.flatMap SipMessage.writes).filterMap ElementWrite.flow)

/-- A packet that has been attributed to a flow of a call. -/
structure Media where
  flow : IpPort
  ssrc : UInt32
  ts : ℤ
  /-- The packet is in the file of the call. -/
  saved : Bool

/-- A call and its history. -/
structure Call where
  since : ℤ
  file : Option Handle
  messages : List SipMessage
  media : List Media
  /-- Media is attributed to flows that have been announced. -/
  announced : ∀ m ∈ media, m.flow ∈ announcedFlows messages

/-- Flows stay announced. -/
lemma announcedFlows_grow (msgs : List SipMessage) (msg : SipMessage) :
    announcedFlows msgs <+: announcedFlows (msgs ++ [msg]) := by
  simp only [announcedFlows, List.flatMap_append, List.filterMap_append]
  exact firstDistinct_grows _ _ _

namespace Call

variable (c : Call)

/-- The assignments of all messages. -/
def writes : List ElementWrite := c.messages.flatMap SipMessage.writes

/-- The flows of the call. -/
def flows : List IpPort := announcedFlows c.messages

/-- There has been a BYE. -/
def finished : Bool := c.messages.any SipMessage.isBye

/-- There has been T.38. -/
def fax : Bool := c.writes.any ElementWrite.isT38

/-- The payload type of events: the last one announced, and 101 before. -/
def eventType : UInt8 := (c.writes.filterMap ElementWrite.event).getLastD 101

/-- The SSRC of the last packet of a flow, and 0 before. -/
def lastSsrc (flow : IpPort) : UInt32 :=
  ((c.media.filter fun m => m.flow = flow).map Media.ssrc).getLastD 0

/-- The media in the file. -/
def saved : List Media := c.media.filter Media.saved

/-- The time of the last packet in the file that was no message. -/
def lastTime : ℤ := (c.saved.map Media.ts).getLastD c.since

/-- The call takes a packet of the flow with the SSRC: after a BYE only the one that it has been
sent. -/
def Takes (flow : IpPort) (ssrc : UInt32) : Prop :=
  flow ∈ c.flows ∧ (c.finished → c.lastSsrc flow = ssrc)

/-- The call is over: too long without media, or too old. -/
def isOver (timeout T : ℤ) : Bool :=
  decide (T - c.lastTime > 300) || decide (T - c.since > timeout)

/-- One more message. -/
def hear (msg : SipMessage) : Call where
  since := c.since
  file := c.file
  messages := c.messages ++ [msg]
  media := c.media
  announced m hm := (announcedFlows_grow _ _).subset (c.announced m hm)

/-- One more packet of a flow. -/
def receive (m : Media) (hm : m.flow ∈ c.flows) : Call where
  since := c.since
  file := c.file
  messages := c.messages
  media := c.media ++ [m]
  announced := by
    intro m' hm'
    rcases List.mem_append.mp hm' with h | h
    · exact c.announced m' h
    · exact List.mem_singleton.mp h ▸ hm

/-- A packet with this payload type goes to the file, if there is one. -/
def saves (o : Options) (payloadType : UInt8) : Bool :=
  c.file.isSome && (o.optRtpsave ≠ .rtpEvent || (payloadType = c.eventType && payloadType < 128))

end Call

/-- A call before its first message. -/
def Call.fresh (ts : ℤ) (file : Option Handle) : Call where
  since := ts
  file := file
  messages := []
  media := []
  announced _ hm := absurd hm List.not_mem_nil

/-! ### The archive -/

/-- The state of the archive. -/
structure Archive where
  calls : CallKey → Option Call := fun _ => none
  lastPass : UInt64 := 0
  /-- The number of calls so far whose first message had a method to record. -/
  matching : ℕ := 0
  /-- The files of the datagrams that are not complete. -/
  datagrams : AddrAddrId → Option Handle := fun _ => none
  /-- The files opened so far, each with its call. -/
  opened : List (CallKey × Handle) := []
  /-- What has been written, and where. -/
  written : List (Handle × Record) := []

namespace Archive

variable (A : Archive)

/-- Some current call takes the packet. -/
def Wants (flow : IpPort) (ssrc : UInt32) : Prop :=
  ∃ k c, A.calls k = some c ∧ c.Takes flow ssrc

/-- The calls that are over go. -/
def expire (o : Options) (T : ℤ) : Archive :=
  { A with calls := fun k => (A.calls k).filter fun c => !c.isOver o.optAbsoluteTimeout T }

/-- What an input begins with. -/
def pass (o : Options) : Input → Archive
  | .packet p =>
      if cleanupDue p.ts A.lastPass then
        { A.expire o p.ts with lastPass := UInt64.ofInt p.ts }
      else A
  | .cleanup T => A.expire o T

/-- The call with the key, as it is now. -/
def update (k : CallKey) (c : Call) : Archive :=
  { A with calls := Function.update A.calls k (some c) }

/-- Write to a file, if there is one. -/
def write (file : Option Handle) (r : Record) : Archive :=
  { A with written := A.written ++ file.toList.map fun f => (f, r) }

/-- The file of a datagram that a message has begun. -/
def follow (datagram : Option AddrAddrId) (file : Option Handle) : Archive :=
  match datagram with
  | some aai => { A with datagrams := Function.update A.datagrams aai file }
  | none => A

/-- A message of a call, in a packet. -/
def tell (k : CallKey) (c : Call) (p : Packet) (datagram : Option AddrAddrId) : Archive :=
  ((A.update k c).write c.file p.terminate.record).follow datagram c.file

section Tell

variable (k : CallKey) (c : Call) (p : Packet) (datagram : Option AddrAddrId)

@[simp] lemma calls_tell :
    (A.tell k c p datagram).calls = Function.update A.calls k (some c) := by
  cases datagram <;> rfl

@[simp] lemma lastPass_tell : (A.tell k c p datagram).lastPass = A.lastPass := by
  cases datagram <;> rfl

@[simp] lemma matching_tell : (A.tell k c p datagram).matching = A.matching := by
  cases datagram <;> rfl

@[simp] lemma opened_tell : (A.tell k c p datagram).opened = A.opened := by
  cases datagram <;> rfl

@[simp] lemma written_tell : (A.tell k c p datagram).written =
    A.written ++ c.file.toList.map fun f => (f, p.terminate.record) := by
  cases datagram <;> rfl

lemma datagrams_tell : (A.tell k c p datagram).datagrams = (match datagram with
    | some aai => Function.update A.datagrams aai c.file
    | none => A.datagrams) := by
  cases datagram <;> rfl

/-- A message tells a call all that was known of it. -/
lemma update_tell (c' : Call) : (A.update k c').tell k c p datagram = A.tell k c p datagram := by
  simp only [tell, update, Function.update_idem]

end Tell

/-- A new call with the key. -/
def enrol (o : Options) (k : CallKey) (file : Option Handle) (msg : SipMessage) : Archive :=
  { A with
    matching := A.matching + if o.methodFilter msg.method then 1 else 0
    opened := A.opened ++ file.toList.map fun f => (k, f) }

/-- A new call may get this file: none, or a new one if it is its turn. -/
def MayOpen (o : Options) (msg : SipMessage) (file : Option Handle) : Prop :=
  ∀ f, file = some f → o.methodFilter msg.method ∧ A.matching % o.skipN = 0 ∧
    ∀ k, (k, f) ∉ A.opened

/-- What a packet may lead to. -/
inductive Hears (o : Options) (p : Packet) : Archive → Prop where
  | other (hr : reading o p = .other) : Hears o p A
  | fragment {aai : AddrAddrId} {last : Bool} (hr : reading o p = .fragment aai last) :
      Hears o p { A.write (A.datagrams aai) p.record with
        datagrams := if last then Function.update A.datagrams aai none else A.datagrams }
  | media {flows before after : List IpPort} {flow : IpPort} {ssrc : UInt32} {pt : UInt8}
      {message : Option SipMessage} {datagram : Option AddrAddrId} {k : CallKey} {c : Call}
      (hr : reading o p = .payload flows ssrc pt message datagram)
      (hflows : flows = before ++ flow :: after) (hbefore : ∀ q ∈ before, ¬A.Wants q ssrc)
      (hk : A.calls k = some c) (htakes : c.Takes flow ssrc) :
      Hears o p ((A.update k (c.receive ⟨flow, ssrc, p.ts, c.saves o pt⟩ htakes.1)).write
        (if c.saves o pt then c.file else none) p.record)
  | stray {flows : List IpPort} {ssrc : UInt32} {pt : UInt8} {message : Option SipMessage}
      {datagram : Option AddrAddrId}
      (hr : reading o p = .payload flows ssrc pt message datagram)
      (hflows : ∀ q ∈ flows, ¬A.Wants q ssrc)
      (hmessage : ∀ msg callId, message = some msg → msg.callId = some callId →
        A.calls (keyOf callId) = none ∧ ¬numberFilterMatched o msg) : Hears o p A
  | known {flows : List IpPort} {ssrc : UInt32} {pt : UInt8} {msg : SipMessage} {callId : Bytes}
      {datagram : Option AddrAddrId} {c : Call}
      (hr : reading o p = .payload flows ssrc pt (some msg) datagram)
      (hflows : ∀ q ∈ flows, ¬A.Wants q ssrc) (hid : msg.callId = some callId)
      (hk : A.calls (keyOf callId) = some c) :
      Hears o p (A.tell (keyOf callId) (c.hear msg) p datagram)
  | new {flows : List IpPort} {ssrc : UInt32} {pt : UInt8} {msg : SipMessage} {callId : Bytes}
      {datagram : Option AddrAddrId} {file : Option Handle}
      (hr : reading o p = .payload flows ssrc pt (some msg) datagram)
      (hflows : ∀ q ∈ flows, ¬A.Wants q ssrc) (hid : msg.callId = some callId)
      (hk : A.calls (keyOf callId) = none) (hn : numberFilterMatched o msg)
      (hfile : A.MayOpen o msg file) :
      Hears o p ((A.enrol o (keyOf callId) file msg).tell (keyOf callId)
        ((Call.fresh p.ts file).hear msg) p datagram)

/-- The archive as a system. -/
def system (o : Options) : System Archive Input where
  step A a B :=
    match a with
    | .packet p => (A.pass o (.packet p)).Hears o p B
    | .cleanup T => B = A.expire o T

end Archive

end PcapSipDump
