import PcapSipDump.CallTable.Ops
import PcapSipDump.Lib.ResourceLog

/-!
# The call table and the log of calls into libpcap

The part of the state of the capture loop that outlives a packet, apart from two counters: the
call table, and the list of the outgoing calls made so far.  The capture loop changes it only
by the operations of this file, which are the inputs of the machine `world`; a condition that
the loop has established when it performs an operation is in `world.allowed`.
-/

namespace PcapSipDump

open Lib Lib.CString

/-- The dumpers that the outgoing calls open, close and write to. -/
def pcapFiles : Usage IoEvent Handle where
  opens
    | .dumpOpen _ _ f => f
    | _ => none
  closes
    | .close f => some f
    | _ => none
  uses
    | .dump _ f _ | .flush f => some f
    | _ => none

/-- What the program gets from outside: `pcap_dump_open`, which returns NULL or a handle that it
has not returned before, and `strftime` for the local time. -/
structure Host where
  dumpOpen : List IoEvent → Bytes → Option Handle
  strftime : Bytes → ℤ → Bytes
  dumpOpen_fresh : ∀ log fn f, dumpOpen log fn = some f →
    ∀ callId fn', IoEvent.dumpOpen callId fn' (some f) ∉ log

lemma lt_sum_succ_of_mem {l : List ℕ} {n : ℕ} (h : n ∈ l) : n < l.sum + 1 := by
  obtain ⟨before, after, rfl⟩ := List.append_of_mem h
  rw [List.sum_append, List.sum_cons]
  omega

/-- A host on which every file can be opened: the handles are numbers, the new one greater than
all before. -/
def Host.numbering : Host where
  dumpOpen log _ := some ((pcapFiles.opened log).sum + 1)
  strftime format _ := format
  dumpOpen_fresh log fn f h callId fn' hmem := by
    have hf : f ∈ pcapFiles.opened log := pcapFiles.mem_opened.mpr ⟨_, hmem, rfl⟩
    have heq : (pcapFiles.opened log).sum + 1 = f := Option.some.inj h
    exact absurd heq (Nat.ne_of_gt (lt_sum_succ_of_mem hf))

/-- The call table and the log. -/
structure World where
  ct : Calltable
  log : List IoEvent := []

namespace World

/-- The element with index `i`. -/
abbrev slot (w : World) (i : ℕ) : CalltableElement := w.ct.slot i

/-- Make some outgoing calls. -/
def emit (w : World) (events : List IoEvent) : World := { w with log := w.log ++ events }

/-- `ct->do_cleanup(currtime)` -/
def cleanup (w : World) (currtime : ℤ) : World :=
  { ct := (w.ct.doCleanup currtime).1, log := w.log ++ (w.ct.doCleanup currtime).2 }

/-- `ct->find_ip_port_ssrc(..)` -/
def findIpPortSsrc (w : World) (addr : UInt32) (port : UInt16) (ssrc : UInt32) :
    Option Flow × World :=
  ((w.ct.findIpPortSsrc addr port ssrc).1,
    { w with ct := (w.ct.findIpPortSsrc addr port ssrc).2 })

/-- `ct->add(..)` -/
def add (w : World) (callId caller callee : Bytes) (time : ℤ) : ℕ × World :=
  ((w.ct.add callId caller callee time).1,
    { ct := (w.ct.add callId caller callee time).2.1
      log := w.log ++ (w.ct.add callId caller callee time).2.2 })

/-- An assignment to an element. -/
def write (w : World) (i : ℕ) (e : ElementWrite) : World :=
  { w with ct := w.ct.modify i e.apply }

/-- `pcap_dump` and `pcap_dump_flush`. -/
def dump (w : World) (via : Via) (f : Handle) (packet : Record) (flushes : List Bool) : World :=
  w.emit (.dump via f packet :: (flushes.filter id).map fun _ => .flush f)

/-- The body of `if (ce->f_pcap != NULL ..)` in the RTP branches. -/
def rtpDump (w : World) (i : ℕ) (packet : Record) (packetbuffered : Bool) : World :=
  match (w.slot i).fPcap with
  | none => w
  | some f => (w.write i (.rtp packet.ts)).dump (.rtp i) f packet [packetbuffered]

/-- The body of `if (ct->table[idx].f_pcap!=NULL)` in the SIP branch. -/
def sipDump (w : World) (i : ℕ) (packet : Record) (bye packetbuffered : Bool) : World :=
  match (w.slot i).fPcap with
  | none => w
  | some f => w.dump (.sip i) f packet [bye, packetbuffered]

/-- The assignment `ct->table[idx].f_pcap=NULL` for a call that is not recorded. -/
def noFile (w : World) (i : ℕ) : World := w.write i (.file none (w.slot i).fnPcap)

/-- Making the directory of the file `fn`, opening the file, and the assignments to the element.
`strlcpy` is the one of libbsd or `strncpy`. -/
def openFile (host : Host) (libbsd : Bool) (w : World) (i : ℕ) (callId fn : Bytes)
    (dir : Option Bytes) : World :=
  let log := w.log ++ (dir.map IoEvent.mkdirP).toList
  let f := host.dumpOpen log fn
  (World.mk w.ct (log ++ [.dumpOpen callId fn f])).write i
    (.file f (strlcpy libbsd (w.slot i).fnPcap fn))

/-- `ct->add_ipfrag(.., ct->table[idx].f_pcap)` -/
def addIpfrag (w : World) (aai : AddrAddrId) (i : ℕ) : World :=
  { w with ct := w.ct.addIpfrag aai (w.slot i).fPcap }

/-- The branches of the capture loop for fragments other than the first. -/
def fragment (w : World) (aai : AddrAddrId) (packet : Record) (last packetbuffered : Bool) :
    World :=
  match w.ct.getIpfrag aai with
  | (none, ct) => { w with ct }
  | (some f, ct) =>
      let w' := ({ w with ct }).dump (.ipfrag aai) f packet [packetbuffered]
      if last then { w' with ct := w'.ct.deleteIpfrag aai } else w'

end World

/-- The operations of the capture loop on the world. -/
inductive WorldOp where
  | cleanup (currtime : ℤ)
  | findIpPortSsrc (addr : UInt32) (port : UInt16) (ssrc : UInt32)
  | rtpDump (i : ℕ) (packet : Record) (packetbuffered : Bool)
  | add (callId caller callee : Bytes) (time : ℤ)
  | openFile (i : ℕ) (callId fn : Bytes) (dir : Option Bytes)
  | noFile (i : ℕ)
  | bye (i : ℕ)
  | sdp (i : ℕ) (e : ElementWrite)
  | sipDump (i : ℕ) (packet : Record) (bye packetbuffered : Bool)
  | addIpfrag (aai : AddrAddrId) (i : ℕ)
  | fragment (aai : AddrAddrId) (packet : Record) (last packetbuffered : Bool)

/-- The assignments that an SDP body can lead to. -/
def ElementWrite.IsSdp : ElementWrite → Prop
  | .rtpmapEvent _ | .hadT38 | .addIpPort _ _ => True
  | _ => False

/-- The world as a machine. -/
def world (host : Host) (libbsd : Bool) : Machine World WorldOp where
  next w
    | .cleanup currtime => w.cleanup currtime
    | .findIpPortSsrc addr port ssrc => (w.findIpPortSsrc addr port ssrc).2
    | .rtpDump i packet packetbuffered => w.rtpDump i packet packetbuffered
    | .add callId caller callee time => (w.add callId caller callee time).2
    | .openFile i callId fn dir => w.openFile host libbsd i callId fn dir
    | .noFile i => w.noFile i
    | .bye i => w.write i .bye
    | .sdp i e => w.write i e
    | .sipDump i packet bye packetbuffered => w.sipDump i packet bye packetbuffered
    | .addIpfrag aai i => w.addIpfrag aai i
    | .fragment aai packet last packetbuffered => w.fragment aai packet last packetbuffered
  allowed w
    | .add callId _ _ _ => w.ct.findByCallId callId = none
    | .openFile i callId _ _ =>
        (w.slot i).isUsed ∧ (w.slot i).fPcap = none ∧ (w.slot i).key = keyOf callId
    | .noFile i => (w.slot i).isUsed ∧ (w.slot i).fPcap = none
    | .bye i => (w.slot i).isUsed
    | .sdp i e => (w.slot i).isUsed ∧ e.IsSdp
    | .rtpDump i _ _ | .sipDump i _ _ _ | .addIpfrag _ i => (w.slot i).isUsed
    | _ => True

end PcapSipDump
