import PcapSipDump.CallTable.Identity

/-!
# The size of the table

`calltable::add` appends to the vector only when every element is used, and no operation removes an
element or moves one.  So the vector has as many elements as were ever used at the same time, and an
entry stays under its index while it is used.
-/

namespace PcapSipDump

open Lib Lib.SlotTable

namespace Calltable

variable {ct : Calltable} {op : TableOp} {i : ℕ}

/-- The number of used elements. -/
def usedCount (ct : Calltable) : ℕ := ct.table.countP CalltableElement.isUsed

/-- The vector grows to the number of used elements, if that is more than it has. -/
lemma length_next (ct : Calltable) (op : TableOp) :
    (plain.next ct op).table.length =
      max ct.table.length (plain.next ct op).usedCount := by
  have hcount : (plain.next ct op).usedCount ≤ (plain.next ct op).table.length :=
    List.countP_le_length
  have hsame : (plain.next ct op).table.length = ct.table.length →
      (plain.next ct op).table.length = max ct.table.length (plain.next ct op).usedCount := by
    intro h
    rw [h] at hcount ⊢
    exact (max_eq_left hcount).symm
  cases op with
  | find callId => exact hsame rfl
  | add callId caller callee time => exact length_alloc _ _ rfl ct.table
  | write i w => exact hsame (List.length_modify _ _ _)
  | findIpPortSsrc addr port ssrc =>
    refine hsame ?_
    rcases ct.findIpPortSsrc_cases addr port ssrc with ⟨-, he⟩ | ⟨i, j, -, he⟩
    · simp only [plain, he]
    · simp only [plain, he]
      exact List.length_modify _ _ _
  | cleanup currtime => exact hsame (List.length_map _)

/-- The element is used for the same entry. -/
structure SameEntry (e e' : CalltableElement) : Prop where
  isUsed : e'.isUsed = e.isUsed
  callId : e'.callId = e.callId
  callIdLen : e'.callIdLen = e.callIdLen
  caller : e'.caller = e.caller
  callee : e'.callee = e.callee
  firstPacketTime : e'.firstPacketTime = e.firstPacketTime

lemma SameEntry.refl (e : CalltableElement) : SameEntry e e := ⟨rfl, rfl, rfl, rfl, rfl, rfl⟩

lemma SameEntry.trans {e e' e'' : CalltableElement} (h : SameEntry e e')
    (h' : SameEntry e' e'') : SameEntry e e'' :=
  ⟨h'.isUsed.trans h.isUsed, h'.callId.trans h.callId, h'.callIdLen.trans h.callIdLen,
    h'.caller.trans h.caller, h'.callee.trans h.callee,
    h'.firstPacketTime.trans h.firstPacketTime⟩

lemma SameEntry.apply (w : ElementWrite) (e : CalltableElement) : SameEntry e (w.apply e) := by
  cases w with
  | addIpPort addr port =>
    rcases e.addIpPort_eq_or addr port with h | ⟨_, _, h⟩
    · rw [ElementWrite.apply, h]
      exact SameEntry.refl e
    · rw [ElementWrite.apply, h]
      exact ⟨rfl, rfl, rfl, rfl, rfl, rfl⟩
  | _ => exact ⟨rfl, rfl, rfl, rfl, rfl, rfl⟩

lemma SameEntry.modify {f : CalltableElement → CalltableElement} (hf : ∀ e, SameEntry e (f e))
    (ct : Calltable) (j i : ℕ) : SameEntry (ct.slot i) ((ct.modify j f).slot i) := by
  rw [slot_modify]
  split
  · exact hf _
  · exact SameEntry.refl _

/-- **What an operation does to an element.**  It keeps its entry, or a pass frees it, or it is the
unused element that `add` gives to a new entry. -/
lemma slot_next_cases (ct : Calltable) (op : TableOp) (i : ℕ) :
    SameEntry (ct.slot i) ((plain.next ct op).slot i) ∨
      (Frees i ct op ∧ (plain.next ct op).slot i = CalltableElement.zero) ∨
      ∃ callId caller callee time, op = .add callId caller callee time ∧ i = ct.addIdx := by
  cases op with
  | find callId => exact Or.inl (SameEntry.refl _)
  | add callId caller callee time =>
    by_cases hi : i = ct.addIdx
    · exact Or.inr (Or.inr ⟨callId, caller, callee, time, rfl, hi⟩)
    · left
      simp only [plain, slot_add, if_neg hi]
      exact SameEntry.refl _
  | write j w => exact Or.inl (SameEntry.modify (SameEntry.apply w) ct j i)
  | findIpPortSsrc addr port ssrc =>
    left
    rcases ct.findIpPortSsrc_cases addr port ssrc with ⟨-, he⟩ | ⟨j, l, -, he⟩
    · simp only [plain, he]
      exact SameEntry.refl _
    · simp only [plain, he]
      have hsame : ∀ e, SameEntry e (CalltableElement.setSsrc l ssrc e) := fun _ =>
        ⟨rfl, rfl, rfl, rfl, rfl, rfl⟩
      exact SameEntry.modify hsame ct j i
  | cleanup currtime =>
    have hs := ct.slot_doCleanup currtime i
    by_cases hd : ct.due currtime (ct.slot i)
    · exact Or.inr (Or.inl ⟨hd, hs.trans (if_pos hd)⟩)
    · rw [if_neg hd] at hs
      left
      simp only [plain, hs]
      exact SameEntry.refl _

/-- A used element keeps its entry unless a pass frees it. -/
lemma sameEntry_next (hi : (ct.slot i).isUsed) (hfree : ¬Frees i ct op) :
    SameEntry (ct.slot i) ((plain.next ct op).slot i) := by
  rcases slot_next_cases ct op i with h | ⟨hf, -⟩ | ⟨_, _, _, _, -, rfl⟩
  · exact h
  · exact absurd hf hfree
  · rw [ct.isUsed_addIdx] at hi
    exact absurd hi (by decide)

/-- A used element keeps its entry in a run that does not free it. -/
lemma sameEntry_run (hi : (ct.slot i).isUsed) {ops : List TableOp}
    (hkeep : plain.Along (fun ct op => ¬Frees i ct op) ct ops) :
    SameEntry (ct.slot i) ((plain.run ct ops).slot i) := by
  have hstep : ∀ ct' op, ¬Frees i ct' op →
      (ct'.slot i).isUsed ∧ SameEntry (ct.slot i) (ct'.slot i) →
      ((plain.next ct' op).slot i).isUsed ∧
        SameEntry (ct.slot i) ((plain.next ct' op).slot i) := by
    rintro ct' op hfree ⟨hu, hsame⟩
    have hnext := sameEntry_next hu hfree
    exact ⟨hnext.isUsed.trans hu, hsame.trans hnext⟩
  exact (Machine.run_of_along hstep hkeep ⟨hi, SameEntry.refl _⟩).2

/-- **The table is as large as its busiest moment.**  After every history of operations from the
empty table the size of the vector is the largest number of elements used at the same time in any
state so far.  A used element keeps its entry until a pass frees it, and the entry of a used element
was under the same index before each operation, unless the operation is the `add` of the entry. -/
theorem length_eq_highWater (eraseNonT38 : Bool) (optAbsoluteTimeout : ℤ) (ops : List TableOp) :
    let start := create eraseNonT38 optAbsoluteTimeout
    IsGreatest {n | ∃ pre, pre <+: ops ∧ n = (plain.run start pre).usedCount}
        (plain.run start ops).table.length ∧
      (∀ pre post i, ops = pre ++ post → ((plain.run start pre).slot i).isUsed →
        plain.Along (fun ct op => ¬Frees i ct op) (plain.run start pre) post →
        SameEntry ((plain.run start pre).slot i) ((plain.run start ops).slot i)) ∧
      ∀ pre op post i, ops = pre ++ op :: post →
        ((plain.run start (pre ++ [op])).slot i).isUsed →
        SameEntry ((plain.run start pre).slot i) ((plain.run start (pre ++ [op])).slot i) ∨
          ∃ callId caller callee time, op = .add callId caller callee time ∧
            i = (plain.run start pre).addIdx := by
  intro start
  refine ⟨?_, ?_, ?_⟩
  · exact Machine.run_isGreatest (f := fun ct : Calltable => ct.table.length) length_next rfl ops
  · rintro pre post i rfl hi hkeep
    rw [plain.run_append]
    exact sameEntry_run hi hkeep
  · rintro pre op post i rfl hi
    have hrun : plain.run start (pre ++ [op]) = plain.next (plain.run start pre) op :=
      plain.run_append _ _ _
    rw [hrun] at hi ⊢
    rcases slot_next_cases (plain.run start pre) op i with h | ⟨-, hz⟩ | h
    · exact Or.inl h
    · rw [hz] at hi
      exact absurd hi (by decide)
    · exact Or.inr h

end Calltable

end PcapSipDump
