import PcapSipDump.CallTable.Basic
import PcapSipDump.Lib.Machine

/-!
# Histories of the call table

The operations that the program performs on the call table, as inputs of a machine: a lookup
or an expiry pass at any time, a new entry only for a Call-ID that the lookup has just missed,
and a write to an element only while the element is used.  What holds of the table after every
legal history is `TableInv`: unused elements are all zero, used ones have different keys, and
the registered pairs of an element are at most four and different.

The main result, `call_identity`, is that a call keeps the index under which it was added
until the pass that frees it.
-/

namespace PcapSipDump

open Lib Lib.CString Lib.SlotTable

/-! ### Keys -/

/-- What identifies a Call-ID to the table: its length and its first 32 bytes. -/
def keyOf (callId : Bytes) : ℕ × Bytes :=
  (callId.length, callId.take (min callId.length 32))

/-- The key under which an element is kept. -/
def CalltableElement.key (e : CalltableElement) : ℕ × Bytes :=
  (e.callIdLen, e.callId.toBytes.take (min e.callIdLen 32))

lemma CalltableElement.isUsed_zero : CalltableElement.zero.isUsed = false := rfl

lemma CalltableElement.matchesCallId_iff {callId : Bytes} {e : CalltableElement} :
    e.matchesCallId callId ↔ e.isUsed ∧ e.key = keyOf callId := by
  simp only [matchesCallId, key, keyOf, Bool.and_eq_true, beq_iff_eq, Prod.mk.injEq, and_assoc]
  constructor
  · rintro ⟨hu, hl, hb⟩
    exact ⟨hu, hl, by rw [hl]; exact hb⟩
  · rintro ⟨hu, hl, hb⟩
    exact ⟨hu, hl, by rw [← hb, hl]⟩

@[simp] lemma CalltableElement.key_init (callId caller callee : Bytes) (time : ℤ)
    (e : CalltableElement) : (e.init callId caller callee time).key = keyOf callId := by
  simp only [key, init, keyOf, Prod.mk.injEq, true_and]
  exact take_toBytes_memcpy _ (Nat.min_le_right _ _) (Nat.min_le_left _ _)

/-! ### Writes to an element -/

/-- The writes that the capture loop makes to an element it has found. -/
inductive ElementWrite where
  | bye
  | rtp (ts : ℤ)
  | file (f : Option Handle) (fnPcap : Buf 128)
  | rtpmapEvent (pt : UInt8)
  | hadT38
  | addIpPort (addr : UInt32) (port : UInt16)

/-- The element after a write. -/
def ElementWrite.apply : ElementWrite → CalltableElement → CalltableElement
  | .bye, e => { e with hadBye := true }
  | .rtp ts, e => { e with lastPacketTime := ts, packets := e.packets + 1 }
  | .file f fnPcap, e => { e with fPcap := f, fnPcap := fnPcap }
  | .rtpmapEvent pt, e => { e with rtpmapEvent := pt }
  | .hadT38, e => { e with hadT38 := true }
  | .addIpPort addr port, e => e.addIpPort addr port

namespace CalltableElement

lemma addIpPort_eq_or (addr : UInt32) (port : UInt16) (e : CalltableElement) :
    e.addIpPort addr port = e ∨
      ∃ h : e.ipN < maxIpPerCall, e.tracks addr port = false ∧
        e.addIpPort addr port = { e with
          ip := Function.update e.ip ⟨e.ipN, h⟩ addr
          port := Function.update e.port ⟨e.ipN, h⟩ port
          ipN := e.ipN + 1 } := by
  unfold addIpPort
  by_cases h : e.ipN < maxIpPerCall
  · rcases ht : e.tracks addr port with _ | _
    · exact Or.inr ⟨h, rfl, by simp [h]⟩
    · exact Or.inl (by simp [h])
  · exact Or.inl (by simp [h])

/-- What does not depend on the flows is kept where a flow is registered. -/
lemma addIpPort_frame {β : Type*} (f : CalltableElement → β)
    (hf : ∀ (e : CalltableElement) ip port ipN,
      f { e with ip := ip, port := port, ipN := ipN } = f e)
    (addr : UInt32) (port : UInt16) (e : CalltableElement) : f (e.addIpPort addr port) = f e := by
  rcases e.addIpPort_eq_or addr port with h | ⟨_, _, h⟩
  · rw [h]
  · rw [h]
    exact hf e _ _ _

@[simp] lemma tracks_eq_true {e : CalltableElement} {addr : UInt32} {port : UInt16} :
    e.tracks addr port = true ↔ ∃ i, i.val < e.ipN ∧ e.ip i = addr ∧ e.port i = port := by
  simp [tracks, and_assoc]

lemma tracks_eq_false {e : CalltableElement} {addr : UInt32} {port : UInt16} :
    e.tracks addr port = false ↔ ∀ i, i.val < e.ipN → e.ip i = addr → e.port i ≠ port := by
  rw [← Bool.not_eq_true, tracks_eq_true]
  push Not
  rfl

end CalltableElement

namespace ElementWrite

@[simp] lemma isUsed_apply (w : ElementWrite) (e : CalltableElement) :
    (w.apply e).isUsed = e.isUsed := by
  cases w with
  | addIpPort addr port =>
    exact e.addIpPort_frame (fun e => e.isUsed) (fun _ _ _ _ => rfl) addr port
  | _ => rfl

@[simp] lemma key_apply (w : ElementWrite) (e : CalltableElement) :
    (w.apply e).key = e.key := by
  cases w with
  | addIpPort addr port =>
    exact e.addIpPort_frame (fun e => e.key) (fun _ _ _ _ => rfl) addr port
  | _ => rfl

/-- The flows that an element has keep their places under a write. -/
lemma flow_apply (w : ElementWrite) {e : CalltableElement} {j : Fin maxIpPerCall}
    (hj : j.val < e.ipN) :
    j.val < (w.apply e).ipN ∧ (w.apply e).ip j = e.ip j ∧ (w.apply e).port j = e.port j := by
  cases w with
  | addIpPort addr port =>
    rcases e.addIpPort_eq_or addr port with h | ⟨hlt, _, h⟩
    · simpa [apply, h] using hj
    · have hne : j ≠ ⟨e.ipN, hlt⟩ := fun hj' => by simp [hj'] at hj
      simp only [apply, h, Function.update_of_ne hne, and_true]
      exact Nat.lt_succ_of_lt hj
  | _ => exact ⟨hj, rfl, rfl⟩

end ElementWrite

/-! ### Reading the table after an operation -/

namespace Calltable

lemma lt_length_of_used {ct : Calltable} {i : ℕ} (h : (ct.slot i).isUsed) :
    i < ct.table.length := by
  apply lt_length_of_at_ne CalltableElement.zero
  intro h0
  rw [slot, h0] at h
  exact absurd h (by decide)

lemma slot_modify (ct : Calltable) (i : ℕ) (f : CalltableElement → CalltableElement) (j : ℕ) :
    (ct.modify i f).slot j =
      if i = j ∧ j < ct.table.length then f (ct.slot j) else ct.slot j :=
  at_modify _ _ _ _ _

lemma slot_modify_of_lt {ct : Calltable} {i : ℕ} (h : i < ct.table.length)
    (f : CalltableElement → CalltableElement) (j : ℕ) :
    (ct.modify i f).slot j = if j = i then f (ct.slot j) else ct.slot j := by
  rw [slot_modify]
  by_cases hj : i = j
  · subst hj
    simp [h]
  · simp [hj, Ne.symm hj]

lemma slot_modify_of_used {ct : Calltable} {i : ℕ} (h : (ct.slot i).isUsed)
    (f : CalltableElement → CalltableElement) (j : ℕ) :
    (ct.modify i f).slot j = if j = i then f (ct.slot j) else ct.slot j :=
  slot_modify_of_lt (lt_length_of_used h) f j

lemma modify_eq_self {ct : Calltable} {i : ℕ} {f : CalltableElement → CalltableElement}
    (h : f (ct.slot i) = ct.slot i) : ct.modify i f = ct := by
  rw [modify, modify_eq_self_of_at _ h]

lemma slot_add (ct : Calltable) (callId caller callee : Bytes) (time : ℤ) (j : ℕ) :
    (ct.add callId caller callee time).2.1.slot j =
      if j = ct.addIdx then (ct.slot j).init callId caller callee time else ct.slot j :=
  at_alloc _ _ _ _ _

lemma isUsed_addIdx (ct : Calltable) : (ct.slot ct.addIdx).isUsed = false :=
  used_at_allocIdx CalltableElement.isUsed_zero ct.table

lemma due_zero (ct : Calltable) (currtime : ℤ) : ct.due currtime CalltableElement.zero = false :=
  rfl

lemma used_of_due {ct : Calltable} {currtime : ℤ} {e : CalltableElement}
    (h : ct.due currtime e) : e.isUsed := by
  simp only [CalltableElement.expired, Bool.and_eq_true] at h
  exact h.1

lemma slot_doCleanup (ct : Calltable) (currtime : ℤ) (j : ℕ) :
    (ct.doCleanup currtime).1.slot j =
      if ct.due currtime (ct.slot j) then CalltableElement.zero else ct.slot j :=
  at_release _ (ct.due_zero currtime) _ _

/-- An element that is used after a pass is one that the pass has left alone. -/
lemma slot_of_used_doCleanup {ct : Calltable} {currtime : ℤ} {j : ℕ}
    (hu : ((ct.doCleanup currtime).1.slot j).isUsed) :
    ¬ct.due currtime (ct.slot j) ∧ (ct.doCleanup currtime).1.slot j = ct.slot j := by
  rw [slot_doCleanup] at hu ⊢
  by_cases hd : ct.due currtime (ct.slot j)
  · rw [if_pos hd] at hu
    exact absurd hu (by decide)
  · exact ⟨hd, if_neg hd⟩

/-- Some element of the vector is due exactly when some index is. -/
lemma any_due_iff (ct : Calltable) (currtime : ℤ) :
    ct.table.any (ct.due currtime) = true ↔ ∃ i, ct.due currtime (ct.slot i) := by
  rw [List.any_eq_true]
  constructor
  · rintro ⟨e, he, hd⟩
    obtain ⟨i, -, rfl⟩ := exists_at_of_mem CalltableElement.zero he
    exact ⟨i, hd⟩
  · rintro ⟨i, hd⟩
    refine ⟨ct.slot i, at_mem _ (lt_length_of_at_ne CalltableElement.zero fun h0 => ?_), hd⟩
    rw [slot, h0, due_zero] at hd
    exact absurd hd (by decide)

lemma findByCallId_eq_lookup (ct : Calltable) (callId : Bytes) :
    ct.findByCallId callId =
      lookup CalltableElement.isUsed CalltableElement.key (keyOf callId) ct.table := by
  apply congrArg (List.findIdx? · ct.table)
  funext e
  rw [Bool.eq_iff_iff, CalltableElement.matchesCallId_iff]
  simp [hasKey]

lemma findByCallId_eq_none_iff {ct : Calltable} {callId : Bytes} :
    ct.findByCallId callId = none ↔
      ∀ i, (ct.slot i).isUsed → (ct.slot i).key ≠ keyOf callId := by
  rw [findByCallId_eq_lookup]
  exact lookup_eq_none_iff CalltableElement.isUsed_zero

end Calltable

/-! ### What one operation can do -/

/-- An operation on the call table. -/
inductive TableOp where
  | find (callId : Bytes)
  | add (callId caller callee : Bytes) (time : ℤ)
  | write (i : ℕ) (w : ElementWrite)
  | findIpPortSsrc (addr : UInt32) (port : UInt16) (ssrc : UInt32)
  | cleanup (currtime : ℤ)

namespace Calltable

/-- The table as a machine.  The program adds a Call-ID only after a lookup has missed it, and
writes to elements that it has just found or added. -/
def plain : Machine Calltable TableOp where
  next ct
    | .find _ => ct
    | .add callId caller callee time => (ct.add callId caller callee time).2.1
    | .write i w => ct.modify i w.apply
    | .findIpPortSsrc addr port ssrc => (ct.findIpPortSsrc addr port ssrc).2
    | .cleanup currtime => (ct.doCleanup currtime).1
  allowed ct
    | .add callId _ _ _ => ct.findByCallId callId = none
    | .write i _ => (ct.slot i).isUsed
    | _ => True

instance (ct : Calltable) : ∀ op, Decidable (plain.allowed ct op)
  | .find _ => isTrue trivial
  | .add callId _ _ _ => inferInstanceAs (Decidable (ct.findByCallId callId = none))
  | .write i _ => inferInstanceAs (Decidable ((ct.slot i).isUsed = true))
  | .findIpPortSsrc _ _ _ => isTrue trivial
  | .cleanup _ => isTrue trivial

lemma mem_flows {ct : Calltable} {i : ℕ} {j : Fin maxIpPerCall} :
    (i, j) ∈ ct.flows ↔ i < ct.table.length ∧ j.val < (ct.slot i).ipN := by
  simp [flows]

/-- What `find_ip_port_ssrc` returns is a registered flow with the address and the port that
takes the SSRC. -/
lemma findFlow_some {ct : Calltable} {addr : UInt32} {port : UInt16} {ssrc : UInt32} {f : Flow}
    (h : ct.findFlow addr port ssrc = some f) :
    f ∈ ct.flows ∧ ct.flowIs addr port f ∧ ct.flowTakes ssrc f := by
  have hp := List.find?_some h
  rw [Bool.and_eq_true] at hp
  exact ⟨List.mem_of_find?_eq_some h, hp⟩

/-- The table after a lookup: as before, or with one SSRC recorded. -/
lemma findIpPortSsrc_cases (ct : Calltable) (addr : UInt32) (port : UInt16) (ssrc : UInt32) :
    (ct.findFlow addr port ssrc = none ∧ ct.findIpPortSsrc addr port ssrc = (none, ct)) ∨
      ∃ i j, ct.findFlow addr port ssrc = some (i, j) ∧
        ct.findIpPortSsrc addr port ssrc =
          (some (i, j), ct.modify i (CalltableElement.setSsrc j ssrc)) := by
  rcases h : ct.findFlow addr port ssrc with _ | ⟨i, j⟩
  · exact Or.inl ⟨rfl, by rw [findIpPortSsrc, h]⟩
  · exact Or.inr ⟨i, j, rfl, by rw [findIpPortSsrc, h]⟩

/-- Unused elements are all zero. -/
def UnusedZero (ct : Calltable) : Prop :=
  ∀ i, (ct.slot i).isUsed = false → ct.slot i = CalltableElement.zero

lemma UnusedZero.used_of_ipN_pos {ct : Calltable} (h : ct.UnusedZero) {i : ℕ}
    (hi : 0 < (ct.slot i).ipN) : (ct.slot i).isUsed := by
  by_contra hu
  rw [h i (by simpa using hu)] at hi
  exact absurd hi (by decide)

/-- A flow found belongs to a used element. -/
lemma UnusedZero.used_of_findFlow {ct : Calltable} (h : ct.UnusedZero) {addr : UInt32}
    {port : UInt16} {ssrc : UInt32} {f : Flow} (hf : ct.findFlow addr port ssrc = some f) :
    (ct.slot f.1).isUsed :=
  h.used_of_ipN_pos (Nat.zero_lt_of_lt (mem_flows.mp (findFlow_some hf).1).2)

lemma UnusedZero.modify {ct : Calltable} (h : ct.UnusedZero) {i : ℕ} (hi : (ct.slot i).isUsed)
    {f : CalltableElement → CalltableElement} (hu : ∀ e, (f e).isUsed = e.isUsed) :
    (ct.modify i f).UnusedZero := by
  intro j hj
  rw [slot_modify_of_used hi] at hj ⊢
  by_cases hji : j = i
  · subst hji
    simp [hu, hi] at hj
  · rw [if_neg hji] at hj ⊢
    exact h j hj

lemma UnusedZero.add {ct : Calltable} (h : ct.UnusedZero) (callId caller callee : Bytes)
    (time : ℤ) : (ct.add callId caller callee time).2.1.UnusedZero := by
  intro j hj
  rw [slot_add] at hj ⊢
  by_cases hji : j = ct.addIdx
  · rw [if_pos hji] at hj
    exact absurd hj (by simp [CalltableElement.init])
  · rw [if_neg hji] at hj ⊢
    exact h j hj

lemma UnusedZero.doCleanup {ct : Calltable} (h : ct.UnusedZero) (currtime : ℤ) :
    (ct.doCleanup currtime).1.UnusedZero := by
  intro j hj
  rw [slot_doCleanup] at hj ⊢
  by_cases hd : ct.due currtime (ct.slot j)
  · rw [if_pos hd]
  · rw [if_neg hd] at hj ⊢
    exact h j hj

/-- The pairs registered in an element are at most four and pairwise different. -/
structure FlowsDistinct (e : CalltableElement) : Prop where
  ipN_le : e.ipN ≤ maxIpPerCall
  inj : ∀ j k : Fin maxIpPerCall, j.val < e.ipN → k.val < e.ipN →
    e.ip j = e.ip k → e.port j = e.port k → j = k

/-- What holds of the table after every legal history. -/
structure TableInv (ct : Calltable) : Prop where
  unusedZero : ct.UnusedZero
  uniqueKeys : UniqueKeys CalltableElement.zero CalltableElement.isUsed CalltableElement.key
    ct.table
  flowsDistinct : ∀ i, FlowsDistinct (ct.slot i)

lemma flowsDistinct_zero : FlowsDistinct CalltableElement.zero :=
  ⟨by decide, fun j k hj => absurd hj (Nat.not_lt_zero _)⟩

/-- Registering one more pair that is not tracked yet keeps the pairs different. -/
lemma FlowsDistinct.addIpPort {e : CalltableElement} (h : FlowsDistinct e) (addr : UInt32)
    (port : UInt16) : FlowsDistinct (e.addIpPort addr port) := by
  rcases e.addIpPort_eq_or addr port with he | ⟨hlt, hnew, he⟩
  · rwa [he]
  · rw [CalltableElement.tracks_eq_false] at hnew
    rw [he]
    refine ⟨hlt, fun j k hj hk => ?_⟩
    have hlast : ∀ l : Fin maxIpPerCall, l.val < e.ipN + 1 → l.val < e.ipN ∨ l = ⟨e.ipN, hlt⟩ :=
      fun l hl => (Nat.lt_succ_iff_lt_or_eq.mp hl).imp_right fun h => Fin.ext h
    have hne : ∀ l : Fin maxIpPerCall, l.val < e.ipN → l ≠ ⟨e.ipN, hlt⟩ :=
      fun l hl hl' => by simp [hl'] at hl
    rcases hlast j hj with hj | rfl <;> rcases hlast k hk with hk | rfl
    · simpa [hne j hj, hne k hk] using h.inj j k hj hk
    · simpa [hne j hj] using fun hi hp => absurd hp (hnew j hj hi)
    · simpa [hne k hk] using fun hi hp => absurd hp.symm (hnew k hk hi.symm)
    · simp

lemma FlowsDistinct.apply {e : CalltableElement} (h : FlowsDistinct e) (w : ElementWrite) :
    FlowsDistinct (w.apply e) := by
  cases w with
  | addIpPort addr port => exact h.addIpPort addr port
  | _ => exact ⟨h.ipN_le, h.inj⟩

/-- A write to a used element that keeps its identity and the shape of its flows keeps the
invariant. -/
lemma TableInv.modify {ct : Calltable} (h : ct.TableInv) {i : ℕ} (hi : (ct.slot i).isUsed)
    {f : CalltableElement → CalltableElement} (hu : ∀ e, (f e).isUsed = e.isUsed)
    (hk : ∀ e, (f e).key = e.key) (hf : ∀ e, FlowsDistinct e → FlowsDistinct (f e)) :
    (ct.modify i f).TableInv := by
  have hslot := slot_modify_of_used hi f
  refine ⟨h.unusedZero.modify hi hu, h.uniqueKeys.of_forall fun j hj => ?_, fun j => ?_⟩
  · have hs := hslot j
    rw [slot] at hs
    rw [hs] at hj ⊢
    by_cases hji : j = i
    · simp only [if_pos hji, hu, hk] at hj ⊢
      exact ⟨hj, trivial⟩
    · rw [if_neg hji] at hj ⊢
      exact ⟨hj, rfl⟩
  · rw [hslot]
    split
    · exact hf _ (h.flowsDistinct j)
    · exact h.flowsDistinct j

lemma TableInv.add {ct : Calltable} (h : ct.TableInv) {callId : Bytes}
    (hnone : ct.findByCallId callId = none) (caller callee : Bytes) (time : ℤ) :
    (ct.add callId caller callee time).2.1.TableInv := by
  refine ⟨h.unusedZero.add callId caller callee time, ?_, fun j => ?_⟩
  · rw [findByCallId_eq_lookup] at hnone
    exact h.uniqueKeys.alloc CalltableElement.isUsed_zero hnone
      (CalltableElement.key_init _ _ _ _ _)
  · rw [slot_add]
    split
    · exact ⟨Nat.zero_le _, fun j k hj => absurd hj (Nat.not_lt_zero _)⟩
    · exact h.flowsDistinct j

lemma TableInv.doCleanup {ct : Calltable} (h : ct.TableInv) (currtime : ℤ) :
    (ct.doCleanup currtime).1.TableInv := by
  refine ⟨h.unusedZero.doCleanup currtime,
    h.uniqueKeys.release CalltableElement.isUsed_zero (ct.due_zero _), fun j => ?_⟩
  · rw [slot_doCleanup]
    split
    · exact flowsDistinct_zero
    · exact h.flowsDistinct j

/-- Every legal operation keeps the invariant. -/
theorem TableInv.next {ct : Calltable} {op : TableOp} (hop : plain.allowed ct op)
    (h : ct.TableInv) : (plain.next ct op).TableInv := by
  cases op with
  | find callId => exact h
  | add callId caller callee time => exact h.add hop caller callee time
  | write i w =>
    exact h.modify hop (fun e => w.isUsed_apply e) (fun e => w.key_apply e) fun e he => he.apply w
  | findIpPortSsrc addr port ssrc =>
    rcases ct.findIpPortSsrc_cases addr port ssrc with ⟨-, he⟩ | ⟨i, j, hf, he⟩
    · simpa only [plain, he] using h
    · have hu : (ct.slot i).isUsed := h.unusedZero.used_of_findFlow hf
      simp only [plain, he]
      exact h.modify hu (fun _ => rfl) (fun _ => rfl) fun e hd => ⟨hd.ipN_le, hd.inj⟩
  | cleanup currtime => exact h.doCleanup currtime

/-- Looking up after an addition. -/
lemma TableInv.findByCallId_add {ct : Calltable} (h : ct.TableInv) {callId : Bytes}
    (hnone : ct.findByCallId callId = none) (caller callee : Bytes) (time : ℤ)
    (callId' : Bytes) :
    (ct.add callId caller callee time).2.1.findByCallId callId' =
      if keyOf callId' = keyOf callId then some ct.addIdx else ct.findByCallId callId' := by
  rw [findByCallId_eq_lookup] at hnone ⊢
  rw [findByCallId_eq_lookup]
  exact h.uniqueKeys.lookup_alloc CalltableElement.isUsed_zero hnone rfl
    (CalltableElement.key_init _ _ _ _ _) _

/-- Looking up after a pass. -/
lemma TableInv.findByCallId_doCleanup {ct : Calltable} (h : ct.TableInv) (currtime : ℤ)
    (callId : Bytes) :
    (ct.doCleanup currtime).1.findByCallId callId =
      (ct.findByCallId callId).filter fun i => !ct.due currtime (ct.slot i) := by
  rw [findByCallId_eq_lookup, findByCallId_eq_lookup]
  exact h.uniqueKeys.lookup_release CalltableElement.isUsed_zero (ct.due_zero currtime) _

lemma TableInv.findByCallId_eq_some_iff {ct : Calltable} (h : ct.TableInv) {callId : Bytes}
    {i : ℕ} : ct.findByCallId callId = some i ↔
      (ct.slot i).isUsed ∧ (ct.slot i).key = keyOf callId := by
  rw [findByCallId_eq_lookup]
  exact h.uniqueKeys.lookup_eq_some_iff CalltableElement.isUsed_zero

/-- The table of `calltable::calltable`, with the options that `main` sets in it. -/
def create (eraseNonT38 : Bool) (optAbsoluteTimeout : ℤ) : Calltable :=
  { eraseNonT38, optAbsoluteTimeout }

lemma slot_create (eraseNonT38 : Bool) (optAbsoluteTimeout : ℤ) (i : ℕ) :
    (create eraseNonT38 optAbsoluteTimeout).slot i = CalltableElement.zero := rfl

lemma tableInv_create (eraseNonT38 : Bool) (optAbsoluteTimeout : ℤ) :
    (create eraseNonT38 optAbsoluteTimeout).TableInv where
  unusedZero _ _ := slot_create ..
  uniqueKeys := uniqueKeys_nil CalltableElement.isUsed_zero
  flowsDistinct _ := flowsDistinct_zero

end Calltable
end PcapSipDump
