import PcapSipDump.Lib.CString
import PcapSipDump.Lib.SlotTable
import Mathlib.Data.List.FinRange
import Mathlib.Logic.Function.Basic

/-!
# The call table

The class `calltable` of `calltable.h` and `calltable.cpp`, in the build without
`USE_CALLTABLE_CACHE`: creation of an entry, lookup by Call-ID, registration and lookup of RTP
flows, expiry, and the map of IP fragments.

An index into the vector stands for an element pointer.  The calls into libpcap, `unlink` and
`Trigger::trigger` are recorded as a list of events in the order in which they are made, so a
function that makes some returns them beside the new table.
-/

namespace PcapSipDump

open Lib.CString Lib.SlotTable

/-- A non-NULL `pcap_dumper_t *`. -/
abbrev Handle := ℕ

/-- What `pcap_dump` writes for a packet: its capture time, its length on the wire and the
captured bytes. -/
structure Record where
  ts : ℤ
  len : UInt32
  bytes : Bytes
deriving DecidableEq

/-- The key of the fragment map, `struct addr_addr_id`. -/
structure AddrAddrId where
  saddr : UInt32
  daddr : UInt32
  id : UInt16
deriving DecidableEq

/-- `operator <` of `addr_addr_id`, the order of the fragment map. -/
def AddrAddrId.lt (a b : AddrAddrId) : Bool :=
  decide (a.saddr < b.saddr) || (a.saddr == b.saddr && decide (a.daddr < b.daddr)) ||
    (a.saddr == b.saddr && a.daddr == b.daddr && decide (a.id < b.id))

/-- The part of the capture loop that dumps a packet: the RTP lookup or the SIP branch through
an entry of the table, or a fragment through the fragment map. -/
inductive Via where
  | rtp (idx : ℕ)
  | sip (idx : ℕ)
  | ipfrag (aai : AddrAddrId)
deriving DecidableEq

/-- The conditions of triggers, `Trigger::open` and `Trigger::close`. -/
inductive TriggerCond where
  | «open»
  | close
deriving DecidableEq

/-- The calls that leave the program, in the order in which they are made. -/
inductive IoEvent where
  /-- `pcap_dump_open` of the path `fn`, for the call `callId`, and the handle it returned. -/
  | dumpOpen (callId fn : Bytes) (f : Option Handle)
  | dump (via : Via) (f : Handle) (packet : Record)
  | flush (f : Handle)
  | close (f : Handle)
  | unlink (fn : Bytes)
  | trigger (cond : TriggerCond) (fn caller callee callId : Bytes) (time : ℤ)
  | mkdirP (path : Bytes)
deriving DecidableEq

/-- `calltable_max_ip_per_call` -/
abbrev maxIpPerCall : ℕ := 4

/-- `struct calltable_element`.  The default values are the ones of a value-initialised
element, and also of an element after `memset(.., 0, ..)`. -/
structure CalltableElement where
  isUsed : Bool := false
  hadBye : Bool := false
  hadT38 : Bool := false
  rtpmapEvent : UInt8 := 0
  caller : Buf 16 := fun _ => 0
  callee : Buf 16 := fun _ => 0
  callId : Buf 32 := fun _ => 0
  callIdLen : ℕ := 0
  ip : Fin maxIpPerCall → UInt32 := fun _ => 0
  port : Fin maxIpPerCall → UInt16 := fun _ => 0
  ssrc : Fin maxIpPerCall → UInt32 := fun _ => 0
  ipN : ℕ := 0
  firstPacketTime : ℤ := 0
  lastPacketTime : ℤ := 0
  packets : UInt64 := 0
  fPcap : Option Handle := none
  fnPcap : Buf 128 := fun _ => 0

namespace CalltableElement

/-- The all-zero element. -/
def zero : CalltableElement := {}

/-- The C string that starts at the field `caller`: the character arrays are adjacent and not
terminated, and zero padding follows `call_id`. -/
def callerStr (e : CalltableElement) : Bytes :=
  cstr (e.caller.toBytes ++ e.callee.toBytes ++ e.callId.toBytes)

/-- The C string that starts at the field `callee`. -/
def calleeStr (e : CalltableElement) : Bytes := cstr (e.callee.toBytes ++ e.callId.toBytes)

/-- The C string that starts at the field `call_id`. -/
def callIdStr (e : CalltableElement) : Bytes := cstr e.callId.toBytes

/-- The C string in `fn_pcap`. -/
def fnPcapStr (e : CalltableElement) : Bytes := cstr e.fnPcap.toBytes

/-- The call of `Trigger::trigger` for an element. -/
def triggerEvent (cond : TriggerCond) (e : CalltableElement) : IoEvent :=
  .trigger cond e.fnPcapStr e.callerStr e.calleeStr e.callIdStr e.firstPacketTime

/-- The assignments of `calltable::add` to the element it has chosen. -/
def init (callId caller callee : Bytes) (time : ℤ) (e : CalltableElement) : CalltableElement :=
  { e with
    isUsed := true
    rtpmapEvent := 101
    hadT38 := false
    hadBye := false
    callId := memcpy e.callId callId (min callId.length 32)
    callIdLen := callId.length
    caller := memcpy e.caller caller 16
    callee := memcpy e.callee callee 16
    ipN := 0
    fPcap := none
    firstPacketTime := time
    lastPacketTime := time }

/-- The test of `calltable::find_by_call_id` on one element. -/
def matchesCallId (callId : Bytes) (e : CalltableElement) : Bool :=
  e.isUsed && e.callIdLen == callId.length &&
    e.callId.toBytes.take (min callId.length 32) == callId.take (min callId.length 32)

/-- The loop of `calltable::add_ip_port`: one of the first `ip_n` pairs is the given one. -/
def tracks (e : CalltableElement) (addr : UInt32) (port : UInt16) : Bool :=
  (List.finRange maxIpPerCall).any fun i =>
    decide (i.val < e.ipN) && e.ip i == addr && e.port i == port

/-- `calltable::add_ip_port` -/
def addIpPort (addr : UInt32) (port : UInt16) (e : CalltableElement) : CalltableElement :=
  if h : e.ipN < maxIpPerCall then
    if e.tracks addr port then e
    else
      { e with
        ip := Function.update e.ip ⟨e.ipN, h⟩ addr
        port := Function.update e.port ⟨e.ipN, h⟩ port
        ipN := e.ipN + 1 }
  else e

/-- The store of `find_ip_port_ssrc` into the element it has found. -/
def setSsrc (j : Fin maxIpPerCall) (ssrc : UInt32) (e : CalltableElement) : CalltableElement :=
  { e with ssrc := Function.update e.ssrc j ssrc }

/-- The expiry test of `calltable::do_cleanup`. -/
def expired (absoluteTimeout currtime : ℤ) (e : CalltableElement) : Bool :=
  e.isUsed && (decide (currtime - e.lastPacketTime > 300) ||
    decide (currtime - e.firstPacketTime > absoluteTimeout))

/-- The calls that `calltable::do_cleanup` makes for an element it frees. -/
def closeEvents (eraseNonT38 : Bool) (e : CalltableElement) : List IoEvent :=
  match e.fPcap with
  | none => []
  | some f =>
      [.flush f, .close f,
        if eraseNonT38 && !e.hadT38 then .unlink e.fnPcapStr else e.triggerEvent .close]

end CalltableElement

/-- `class calltable`.  The outer `Option` of `ipfrags` says whether the map has the key, the
inner one is the stored pointer. -/
structure Calltable where
  table : List CalltableElement := []
  ipfrags : AddrAddrId → Option (Option Handle) := fun _ => none
  eraseNonT38 : Bool := false
  optAbsoluteTimeout : ℤ := 2147483647
  globalLastPacketTime : ℤ := 0

/-- A registered flow: the index of a slot and of one of its ip:port pairs. -/
abbrev Flow := ℕ × Fin maxIpPerCall

namespace Calltable

/-- The element with index `i`; the all-zero one outside the table. -/
abbrev slot (ct : Calltable) (i : ℕ) : CalltableElement := slotAt CalltableElement.zero ct.table i

/-- Change one element. -/
def modify (ct : Calltable) (i : ℕ) (f : CalltableElement → CalltableElement) : Calltable :=
  { ct with table := ct.table.modify i f }

/-- The index that `calltable::add` chooses: the first unused element, else a new one. -/
def addIdx (ct : Calltable) : ℕ := allocIdx CalltableElement.isUsed ct.table

/-- `calltable::add`: the returned index, the table, and the open triggers. -/
def add (ct : Calltable) (callId caller callee : Bytes) (time : ℤ) :
    ℕ × Calltable × List IoEvent :=
  let ct' := { ct with
    table := alloc CalltableElement.zero CalltableElement.isUsed
      (CalltableElement.init callId caller callee time) ct.table
    globalLastPacketTime := time }
  (ct.addIdx, ct', [(ct'.slot ct.addIdx).triggerEvent .open])

/-- `calltable::find_by_call_id`; `none` stands for -1. -/
def findByCallId (ct : Calltable) (callId : Bytes) : Option ℕ :=
  ct.table.findIdx? (CalltableElement.matchesCallId callId)

/-- `calltable::add_ip_port` on the element with index `i`. -/
def addIpPort (ct : Calltable) (i : ℕ) (addr : UInt32) (port : UInt16) : Calltable :=
  ct.modify i (CalltableElement.addIpPort addr port)

/-- The pairs `(i_leg, i_rtp)` in the order of the two loops of `find_ip_port_ssrc`. -/
def flows (ct : Calltable) : List Flow :=
  (List.range ct.table.length).flatMap fun i =>
    ((List.finRange maxIpPerCall).filter fun j => decide (j.val < (ct.slot i).ipN)).map (i, ·)

/-- The flow has the address and the port. -/
def flowIs (ct : Calltable) (addr : UInt32) (port : UInt16) (f : Flow) : Bool :=
  (ct.slot f.1).port f.2 == port && (ct.slot f.1).ip f.2 == addr

/-- A packet with this SSRC may belong to the flow: its call has not seen a BYE, or the SSRC
is the recorded one. -/
def flowTakes (ct : Calltable) (ssrc : UInt32) (f : Flow) : Bool :=
  !(ct.slot f.1).hadBye || (ct.slot f.1).ssrc f.2 == ssrc

/-- The full search of `calltable::find_ip_port_ssrc`. -/
def findFlow (ct : Calltable) (addr : UInt32) (port : UInt16) (ssrc : UInt32) : Option Flow :=
  ct.flows.find? fun f => ct.flowIs addr port f && ct.flowTakes ssrc f

/-- `calltable::find_ip_port_ssrc`: the flow found, and the table with its SSRC recorded. -/
def findIpPortSsrc (ct : Calltable) (addr : UInt32) (port : UInt16) (ssrc : UInt32) :
    Option Flow × Calltable :=
  match ct.findFlow addr port ssrc with
  | some (i, j) => (some (i, j), ct.modify i (CalltableElement.setSsrc j ssrc))
  | none => (none, ct)

/-- The element is one that `do_cleanup(currtime)` frees. -/
abbrev due (ct : Calltable) (currtime : ℤ) : CalltableElement → Bool :=
  CalltableElement.expired ct.optAbsoluteTimeout currtime

/-- `calltable::do_cleanup`: the table, and the calls made for the elements that are freed. -/
def doCleanup (ct : Calltable) (currtime : ℤ) : Calltable × List IoEvent :=
  ({ ct with table := release CalltableElement.zero (ct.due currtime) ct.table },
    ct.table.flatMap fun e => if ct.due currtime e then e.closeEvents ct.eraseNonT38 else [])

/-- `calltable::add_ipfrag` -/
def addIpfrag (ct : Calltable) (aai : AddrAddrId) (f : Option Handle) : Calltable :=
  { ct with ipfrags := Function.update ct.ipfrags aai (some f) }

/-- `calltable::delete_ipfrag` -/
def deleteIpfrag (ct : Calltable) (aai : AddrAddrId) : Calltable :=
  { ct with ipfrags := Function.update ct.ipfrags aai none }

/-- `calltable::get_ipfrag`: `operator[]` of the map, which adds a missing key with NULL. -/
def getIpfrag (ct : Calltable) (aai : AddrAddrId) : Option Handle × Calltable :=
  match ct.ipfrags aai with
  | some f => (f, ct)
  | none => (none, ct.addIpfrag aai none)

end Calltable

end PcapSipDump
