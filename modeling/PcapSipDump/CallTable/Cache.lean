import PcapSipDump.CallTable.Ops

/-!
# The call table with caches

The build with `USE_CALLTABLE_CACHE`.  Beside the vector the class then keeps a map from
Call-IDs to indices and a map from ip:port pairs to flows, and answers lookups from these maps
where it can.  Everything outside the `#ifdef`s is the plain build's.
-/

namespace PcapSipDump

open Lib Lib.CString Lib.SlotTable

/-- The key of the flow cache, `struct addr_port`. -/
structure AddrPort where
  addr : UInt32
  port : UInt16
deriving DecidableEq

/-- A value of the flow cache, `struct ce_irtp_ssrc`: a flow and the SSRC remembered for it, or
the negative entry `{NULL, -1, 0}`. -/
abbrev CeIrtpSsrc := Option (Flow × UInt32)

/-- `class calltable` with `USE_CALLTABLE_CACHE`.  A map gives `none` for a missing key. -/
structure CachedCalltable extends Calltable where
  cache : AddrPort → Option CeIrtpSsrc := fun _ => none
  callIdCache : Bytes → Option ℕ := fun _ => none

/-- `std::string(call_id, call_id_len)` of an element. -/
def CalltableElement.callIdString (e : CalltableElement) : Bytes :=
  e.callId.toBytes.take e.callIdLen

namespace CachedCalltable

/-- Change one element and nothing in the caches. -/
def modify (K : CachedCalltable) (i : ℕ) (f : CalltableElement → CalltableElement) :
    CachedCalltable :=
  { K with toCalltable := K.toCalltable.modify i f }

/-- `cache[ap] = v` -/
def setCache (K : CachedCalltable) (ap : AddrPort) (v : CeIrtpSsrc) : CachedCalltable :=
  { K with cache := Function.update K.cache ap (some v) }

/-- `calltable::add` -/
def add (K : CachedCalltable) (callId caller callee : Bytes) (time : ℤ) :
    ℕ × CachedCalltable × List IoEvent :=
  let (idx, ct, events) := K.toCalltable.add callId caller callee time
  (idx, { K with
    toCalltable := ct
    callIdCache := Function.update K.callIdCache callId (some idx) }, events)

/-- `calltable::find_by_call_id` -/
def findByCallId (K : CachedCalltable) (callId : Bytes) : Option ℕ := K.callIdCache callId

/-- `calltable::add_ip_port` -/
def addIpPort (K : CachedCalltable) (i : ℕ) (addr : UInt32) (port : UInt16) : CachedCalltable :=
  if h : (K.slot i).ipN < maxIpPerCall then
    if (K.slot i).tracks addr port then K
    else (K.modify i (CalltableElement.addIpPort addr port)).setCache ⟨addr, port⟩
      (some ((i, ⟨(K.slot i).ipN, h⟩), 0))
  else K

/-- The full search at the end of `calltable::find_ip_port_ssrc`, whose answer is cached. -/
def fullSearch (K : CachedCalltable) (addr : UInt32) (port : UInt16) (ssrc : UInt32) :
    Option Flow × CachedCalltable :=
  match K.findFlow addr port ssrc with
  | some (i, j) =>
      (some (i, j), (K.setCache ⟨addr, port⟩ (some ((i, j), ssrc))).modify i
        (CalltableElement.setSsrc j ssrc))
  | none => (none, K.setCache ⟨addr, port⟩ none)

/-- `calltable::find_ip_port_ssrc` -/
def findIpPortSsrc (K : CachedCalltable) (addr : UInt32) (port : UInt16) (ssrc : UInt32) :
    Option Flow × CachedCalltable :=
  match K.cache ⟨addr, port⟩ with
  | some (some ((i, j), remembered)) =>
      if ssrc ≠ remembered then
        if (K.slot i).hadBye then
          -- the entry is dropped before the table is searched
          CachedCalltable.fullSearch
            { K with cache := Function.update K.cache ⟨addr, port⟩ none } addr port ssrc
        else
          (some (i, j), (K.modify i (CalltableElement.setSsrc j ssrc)).setCache ⟨addr, port⟩
            (some ((i, j), ssrc)))
      else (some (i, j), K)
  | some none => (none, K)
  | none => K.fullSearch addr port ssrc

/-- The last lines of the loop body of `calltable::do_cleanup`: drop the cached pairs and the
cached Call-ID of the element, as the element is at that point. -/
def eraseIndex (K : CachedCalltable) (e : CalltableElement) : CachedCalltable :=
  { K with
    cache := fun ap => if e.tracks ap.addr ap.port then none else K.cache ap
    callIdCache := Function.update K.callIdCache e.callIdString none }

/-- `calltable::do_cleanup`.  An element is zeroed before its pairs and its Call-ID are read
for the caches, so what is read there is the zeroed element. -/
def doCleanup (K : CachedCalltable) (currtime : ℤ) : CachedCalltable × List IoEvent :=
  let (ct, events) := K.toCalltable.doCleanup currtime
  ((K.table.filter (K.due currtime)).foldl
    (fun K' _ => K'.eraseIndex CalltableElement.zero) { K with toCalltable := ct }, events)

/-- The element after a write, for the writes that touch no cache. -/
def write (K : CachedCalltable) (i : ℕ) : ElementWrite → CachedCalltable
  | .addIpPort addr port => K.addIpPort i addr port
  | w => K.modify i w.apply

end CachedCalltable

/-- The table with caches as a machine, under the same discipline as `plain`. -/
def cached : Machine CachedCalltable TableOp where
  next K
    | .find _ => K
    | .add callId caller callee time => (K.add callId caller callee time).2.1
    | .write i w => K.write i w
    | .findIpPortSsrc addr port ssrc => (K.findIpPortSsrc addr port ssrc).2
    | .cleanup currtime => (K.doCleanup currtime).1
  allowed K
    | .add callId _ _ _ => K.findByCallId callId = none
    | .write i _ => (K.slot i).isUsed
    | _ => True

namespace CachedCalltable

instance (K : CachedCalltable) : ∀ op, Decidable (cached.allowed K op)
  | .find _ => isTrue trivial
  | .add callId _ _ _ => inferInstanceAs (Decidable (K.findByCallId callId = none))
  | .write i _ => inferInstanceAs (Decidable ((K.slot i).isUsed = true))
  | .findIpPortSsrc _ _ _ => isTrue trivial
  | .cleanup _ => isTrue trivial

/-- The object of `calltable::calltable`, with the options that `main` sets in it. -/
def create (eraseNonT38 : Bool) (optAbsoluteTimeout : ℤ) : CachedCalltable :=
  { toCalltable := Calltable.create eraseNonT38 optAbsoluteTimeout }

/-! ### What a lookup and a registration do -/

section Cases

variable {K : CachedCalltable} {addr : UInt32} {port : UInt16} {ssrc c : UInt32} {f : Flow}

lemma fullSearch_of_none (hf : K.findFlow addr port ssrc = none) :
    K.fullSearch addr port ssrc = (none, K.setCache ⟨addr, port⟩ none) := by
  rw [fullSearch, hf]

lemma fullSearch_of_some (hf : K.findFlow addr port ssrc = some f) :
    K.fullSearch addr port ssrc = (some f, (K.setCache ⟨addr, port⟩ (some (f, ssrc))).modify f.1
      (CalltableElement.setSsrc f.2 ssrc)) := by
  obtain ⟨i, j⟩ := f
  rw [fullSearch, hf]

/-- Without an entry the table is searched. -/
lemma findIpPortSsrc_of_missing (hc : K.cache ⟨addr, port⟩ = none) :
    K.findIpPortSsrc addr port ssrc = K.fullSearch addr port ssrc := by
  rw [findIpPortSsrc, hc]

lemma findIpPortSsrc_of_negative (hc : K.cache ⟨addr, port⟩ = some none) :
    K.findIpPortSsrc addr port ssrc = (none, K) := by
  rw [findIpPortSsrc, hc]

/-- An entry answers for the SSRC that it remembers. -/
lemma findIpPortSsrc_of_same (hc : K.cache ⟨addr, port⟩ = some (some (f, ssrc))) :
    K.findIpPortSsrc addr port ssrc = (some f, K) := by
  obtain ⟨i, j⟩ := f
  simp only [findIpPortSsrc, hc, ne_eq, not_true, if_false]

/-- Before the BYE the entry takes another SSRC. -/
lemma findIpPortSsrc_of_open (hc : K.cache ⟨addr, port⟩ = some (some (f, c))) (hs : ssrc ≠ c)
    (hbye : (K.slot f.1).hadBye = false) :
    K.findIpPortSsrc addr port ssrc =
      (some f, (K.modify f.1 (CalltableElement.setSsrc f.2 ssrc)).setCache ⟨addr, port⟩
        (some (f, ssrc))) := by
  obtain ⟨i, j⟩ := f
  simp only [findIpPortSsrc, hc, if_pos hs, hbye, Bool.false_eq_true, if_false]

/-- After the BYE another SSRC drops the entry, and the table is searched. -/
lemma findIpPortSsrc_of_bye (hc : K.cache ⟨addr, port⟩ = some (some (f, c))) (hs : ssrc ≠ c)
    (hbye : (K.slot f.1).hadBye = true) :
    K.findIpPortSsrc addr port ssrc = CachedCalltable.fullSearch
      { K with cache := Function.update K.cache ⟨addr, port⟩ none } addr port ssrc := by
  obtain ⟨i, j⟩ := f
  simp only [findIpPortSsrc, hc, if_pos hs, hbye, if_true]

/-- A registration that is refused changes nothing. -/
lemma addIpPort_refused {i : ℕ}
    (h : (K.slot i).ipN < maxIpPerCall → (K.slot i).tracks addr port = true) :
    K.addIpPort i addr port = K := by
  rw [addIpPort]
  by_cases hlt : (K.slot i).ipN < maxIpPerCall
  · rw [dif_pos hlt, if_pos (h hlt)]
  · rw [dif_neg hlt]

lemma addIpPort_of_new {i : ℕ} (hlt : (K.slot i).ipN < maxIpPerCall)
    (ht : (K.slot i).tracks addr port = false) :
    K.addIpPort i addr port = (K.modify i (CalltableElement.addIpPort addr port)).setCache
      ⟨addr, port⟩ (some ((i, ⟨(K.slot i).ipN, hlt⟩), 0)) := by
  rw [addIpPort, dif_pos hlt, ht]
  rfl

end Cases

/-! ### What the erasure at the end of a pass does -/

/-- The zeroed element has no pairs and the empty Call-ID: erasing it drops the empty Call-ID
from the index and nothing else. -/
lemma eraseIndex_zero (K : CachedCalltable) :
    K.eraseIndex CalltableElement.zero =
      { K with callIdCache := Function.update K.callIdCache [] none } := by
  have htracks : ∀ addr port, CalltableElement.zero.tracks addr port = false := fun _ _ =>
    CalltableElement.tracks_eq_false.mpr fun i hi => absurd hi (Nat.not_lt_zero _)
  have hstring : CalltableElement.zero.callIdString = [] := List.take_zero
  simp only [eraseIndex, htracks, hstring, Bool.false_eq_true, if_false]

lemma foldl_eraseIndex (es : List CalltableElement) (K : CachedCalltable) :
    es.foldl (fun K' _ => K'.eraseIndex CalltableElement.zero) K =
      if es = [] then K
      else { K with callIdCache := Function.update K.callIdCache [] none } := by
  induction es generalizing K with
  | nil => rfl
  | cons e es ih =>
    rw [List.foldl_cons, ih, eraseIndex_zero]
    by_cases hes : es = [] <;> simp [hes]

@[simp] lemma toCalltable_doCleanup (K : CachedCalltable) (currtime : ℤ) :
    (K.doCleanup currtime).1.toCalltable = (K.toCalltable.doCleanup currtime).1 := by
  simp only [doCleanup, foldl_eraseIndex]
  split <;> rfl

@[simp] lemma cache_doCleanup (K : CachedCalltable) (currtime : ℤ) :
    (K.doCleanup currtime).1.cache = K.cache := by
  simp only [doCleanup, foldl_eraseIndex]
  split <;> rfl

/-- A pass changes the Call-ID index at most at the empty Call-ID, and there exactly when it
frees an element. -/
lemma callIdCache_doCleanup (K : CachedCalltable) (currtime : ℤ) (callId : Bytes) :
    (K.doCleanup currtime).1.callIdCache callId =
      if callId = [] ∧ K.table.any (K.due currtime) then none else K.callIdCache callId := by
  have hfreed : K.table.filter (K.due currtime) = [] ↔ ¬K.table.any (K.due currtime) := by
    simp
  simp only [doCleanup, foldl_eraseIndex, hfreed]
  by_cases hd : K.table.any (K.due currtime)
  · by_cases hid : callId = [] <;> simp [hd, hid]
  · simp [hd]

end CachedCalltable

end PcapSipDump
