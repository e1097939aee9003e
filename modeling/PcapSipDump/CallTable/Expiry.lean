import PcapSipDump.CallTable.Ops

/-!
# Expiry passes

`do_cleanup` frees the elements that have been silent or in use for too long, and each file of such
an element is closed and then removed or handed to the close triggers.  Both tests only get easier
as time goes on, so a pass absorbs the passes before it: whatever they have done early, it would
have done.
-/

namespace PcapSipDump

open Lib.SlotTable

namespace Calltable

variable {ct : Calltable} {t t₁ t₂ : ℤ} {i : ℕ}

/-- The element with index `i` is used, and at time `t` its last packet is more than 300 seconds
old or its first one is older than the limit. -/
def Expires (ct : Calltable) (t : ℤ) (i : ℕ) : Prop :=
  (ct.slot i).isUsed ∧ (t - (ct.slot i).lastPacketTime > 300 ∨
    t - (ct.slot i).firstPacketTime > ct.optAbsoluteTimeout)

lemma due_iff_expires : ct.due t (ct.slot i) ↔ ct.Expires t i := by
  simp only [CalltableElement.expired, Expires, Bool.and_eq_true, Bool.or_eq_true,
    decide_eq_true_eq]

/-- An element that is due stays due. -/
lemma due_mono (h : t₁ ≤ t₂) (e : CalltableElement) (hd : ct.due t₁ e) : ct.due t₂ e := by
  simp only [CalltableElement.expired, Bool.and_eq_true, Bool.or_eq_true,
    decide_eq_true_eq] at hd ⊢
  exact ⟨hd.1, hd.2.imp (by omega) (by omega)⟩

/-- The calls that a pass makes for the file of the element with index `i`. -/
def fileEvents (ct : Calltable) (t : ℤ) (i : ℕ) : List IoEvent :=
  if ct.due t (ct.slot i) then (ct.slot i).closeEvents ct.eraseNonT38 else []

/-- The calls of a pass, element by element. -/
lemma doCleanup_snd (ct : Calltable) (t : ℤ) :
    (ct.doCleanup t).2 = (List.range ct.table.length).flatMap (ct.fileEvents t) := by
  have htable := map_at_range CalltableElement.zero ct.table
  calc (ct.doCleanup t).2
      = ((List.range ct.table.length).map ct.slot).flatMap
          fun e => if ct.due t e then e.closeEvents ct.eraseNonT38 else [] := by
        rw [htable]
        rfl
    _ = (List.range ct.table.length).flatMap (ct.fileEvents t) := by
        rw [List.flatMap_map]
        rfl

lemma fileEvents_of_not_expires (h : ¬ct.Expires t i) : ct.fileEvents t i = [] := by
  rw [fileEvents, if_neg (mt due_iff_expires.mp h)]

lemma fileEvents_of_no_file (h : (ct.slot i).fPcap = none) : ct.fileEvents t i = [] := by
  rw [fileEvents, CalltableElement.closeEvents, h]
  split <;> rfl

lemma fileEvents_of_file (h : ct.Expires t i) {f : Handle} (hf : (ct.slot i).fPcap = some f) :
    ct.fileEvents t i = [.flush f, .close f,
      if ct.eraseNonT38 = true ∧ (ct.slot i).hadT38 = false then .unlink (ct.slot i).fnPcapStr
      else (ct.slot i).triggerEvent .close] := by
  rw [fileEvents, if_pos (due_iff_expires.mpr h), CalltableElement.closeEvents, hf]
  simp

/-- **A pass absorbs an earlier one**: the table is the same, and so are the calls, up to their
order. -/
lemma doCleanup_doCleanup (h : t₁ ≤ t₂) (ct : Calltable) :
    ((ct.doCleanup t₁).1.doCleanup t₂).1 = (ct.doCleanup t₂).1 ∧
      ((ct.doCleanup t₁).2 ++ ((ct.doCleanup t₁).1.doCleanup t₂).2).Perm (ct.doCleanup t₂).2 := by
  constructor
  · exact congrArg (fun table => { ct with table })
      (release_release (due_mono h) (ct.due_zero t₂) ct.table)
  · exact released_append_perm (due_mono h) (ct.due_zero t₂)
      (CalltableElement.closeEvents ct.eraseNonT38) ct.table

/-- **Expiry passes absorb earlier ones.**  A pass zeroes the elements that expire and leaves the
others, the size of the table and the rest of it as they are.  For each element that it frees it
makes no call if there is no file, and otherwise closes the file and then either removes it or hands
it to the close triggers.  A pass at any time and a later one leave the same table as the later one
alone, and make the same calls in some order; a pass that is repeated at once changes nothing and
makes no calls. -/
theorem doCleanup_absorbs (ct : Calltable) :
    (∀ t, (∀ i, (ct.Expires t i → (ct.doCleanup t).1.slot i = CalltableElement.zero) ∧
        (¬ct.Expires t i → (ct.doCleanup t).1.slot i = ct.slot i)) ∧
      (ct.doCleanup t).1.table.length = ct.table.length ∧
      (ct.doCleanup t).1 = { ct with table := (ct.doCleanup t).1.table } ∧
      (ct.doCleanup t).2 = (List.range ct.table.length).flatMap (ct.fileEvents t) ∧
      ∀ i, (¬ct.Expires t i → ct.fileEvents t i = []) ∧
        ((ct.slot i).fPcap = none → ct.fileEvents t i = []) ∧
        ∀ f, ct.Expires t i → (ct.slot i).fPcap = some f → ct.fileEvents t i = [.flush f, .close f,
          if ct.eraseNonT38 = true ∧ (ct.slot i).hadT38 = false then .unlink (ct.slot i).fnPcapStr
          else (ct.slot i).triggerEvent .close]) ∧
    (∀ t₁ t₂, t₁ ≤ t₂ → ((ct.doCleanup t₁).1.doCleanup t₂).1 = (ct.doCleanup t₂).1 ∧
      ((ct.doCleanup t₁).2 ++ ((ct.doCleanup t₁).1.doCleanup t₂).2).Perm (ct.doCleanup t₂).2) ∧
    ∀ t, (ct.doCleanup t).1.doCleanup t = ((ct.doCleanup t).1, []) := by
  refine ⟨fun t => ⟨fun i => ?_, List.length_map _, rfl, doCleanup_snd ct t, fun i =>
    ⟨fileEvents_of_not_expires, fileEvents_of_no_file, fun f hi hf => fileEvents_of_file hi hf⟩⟩,
    fun t₁ t₂ h => doCleanup_doCleanup h ct, fun t => ?_⟩
  · rw [slot_doCleanup]
    exact ⟨fun h => if_pos (due_iff_expires.mpr h), fun h => if_neg (mt due_iff_expires.mp h)⟩
  · obtain ⟨htable, hevents⟩ := doCleanup_doCleanup (le_refl t) ct
    have hnone : ((ct.doCleanup t).1.doCleanup t).2 = [] := by
      have hlength := hevents.length_eq
      rw [List.length_append] at hlength
      exact List.eq_nil_of_length_eq_zero (by omega)
    exact Prod.ext htable hnone

end Calltable

end PcapSipDump
