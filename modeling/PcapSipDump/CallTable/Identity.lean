import PcapSipDump.CallTable.Ops

/-!
# Identity of calls

A call is found under the index at which it was added, and under no other, from the `add` to
the expiry pass that frees its element; after that pass its Call-ID is unknown until it is
added again.

Two inversion lemmas say what one legal operation does to the used elements: an element that is
used afterwards was used before with the same key or has just been added (`used_of_used_next`),
and a used element stays used with its key unless the operation frees it (`used_next`).
-/

namespace PcapSipDump

open Lib Lib.CString Lib.SlotTable

namespace Calltable

/-- The operation is a pass that frees the element with index `i`. -/
def Frees (i : ℕ) (ct : Calltable) : TableOp → Prop
  | .cleanup currtime => ct.due currtime (ct.slot i)
  | _ => False

instance (i : ℕ) (ct : Calltable) : ∀ op, Decidable (Frees i ct op)
  | .cleanup currtime => inferInstanceAs (Decidable (ct.due currtime (ct.slot i) = true))
  | .find _ | .add _ _ _ _ | .write _ _ | .findIpPortSsrc _ _ _ => isFalse id

/-- The operation adds a call under the key `k`. -/
def AddsKey (k : ℕ × Bytes) : TableOp → Prop
  | .add callId _ _ _ => keyOf callId = k
  | _ => False

variable {ct : Calltable} {op : TableOp} {i : ℕ} {k : ℕ × Bytes}

lemma used_of_used_next (h : ct.TableInv) (hop : plain.allowed ct op)
    (hi : ((plain.next ct op).slot i).isUsed) :
    ((ct.slot i).isUsed ∧ ((plain.next ct op).slot i).key = (ct.slot i).key) ∨
      AddsKey ((plain.next ct op).slot i).key op := by
  cases op with
  | find callId => exact Or.inl ⟨hi, rfl⟩
  | add callId caller callee time =>
    have hs := ct.slot_add callId caller callee time i
    by_cases hia : i = ct.addIdx
    · right
      rw [if_pos hia] at hs
      simp only [plain, AddsKey, hs, CalltableElement.key_init]
    · left
      rw [if_neg hia] at hs
      simp only [plain, hs] at hi ⊢
      exact ⟨hi, trivial⟩
  | write j w =>
    left
    have hs := slot_modify_of_used hop w.apply i
    simp only [plain, hs] at hi ⊢
    split at hi
    · next hij => simpa [hij] using hi
    · next hij => simpa [hij] using hi
  | findIpPortSsrc addr port ssrc =>
    left
    rcases ct.findIpPortSsrc_cases addr port ssrc with ⟨-, he⟩ | ⟨j, l, hf, he⟩
    · simp only [plain, he] at hi ⊢
      exact ⟨hi, trivial⟩
    · have hs := slot_modify_of_used (h.unusedZero.used_of_findFlow hf)
        (CalltableElement.setSsrc l ssrc) i
      simp only [plain, he, hs] at hi ⊢
      by_cases hij : i = j
      · rw [if_pos hij] at hi ⊢
        exact ⟨hi, rfl⟩
      · rw [if_neg hij] at hi ⊢
        exact ⟨hi, rfl⟩
  | cleanup currtime =>
    left
    have hs : (plain.next ct (.cleanup currtime)).slot i = ct.slot i :=
      (slot_of_used_doCleanup hi).2
    rw [hs] at hi ⊢
    exact ⟨hi, rfl⟩

lemma used_next (h : ct.TableInv) (hop : plain.allowed ct op) (hfree : ¬Frees i ct op)
    (hi : (ct.slot i).isUsed) :
    ((plain.next ct op).slot i).isUsed ∧
      ((plain.next ct op).slot i).key = (ct.slot i).key := by
  cases op with
  | find callId => exact ⟨hi, rfl⟩
  | add callId caller callee time =>
    have hs := ct.slot_add callId caller callee time i
    -- `add` chooses an element that is not in use
    have hia : i ≠ ct.addIdx := by
      rintro rfl
      rw [ct.isUsed_addIdx] at hi
      exact absurd hi (by decide)
    rw [if_neg hia] at hs
    simp only [plain, hs]
    exact ⟨hi, trivial⟩
  | write j w =>
    have hs := slot_modify_of_used hop w.apply i
    simp only [plain, hs]
    split <;> simpa using hi
  | findIpPortSsrc addr port ssrc =>
    rcases ct.findIpPortSsrc_cases addr port ssrc with ⟨-, he⟩ | ⟨j, l, hf, he⟩
    · simpa only [plain, he, and_true] using hi
    · have hs := slot_modify_of_used (h.unusedZero.used_of_findFlow hf)
        (CalltableElement.setSsrc l ssrc) i
      simp only [plain, he, hs]
      split <;> exact ⟨hi, rfl⟩
  | cleanup currtime =>
    have hs := ct.slot_doCleanup currtime i
    have hd : ¬ct.due currtime (ct.slot i) := hfree
    rw [if_neg hd] at hs
    simp only [plain, hs]
    exact ⟨hi, trivial⟩

/-- The call with the key `k` is in the element with index `i`. -/
structure Holds (i : ℕ) (k : ℕ × Bytes) (ct : Calltable) : Prop where
  inv : ct.TableInv
  used : (ct.slot i).isUsed
  key : (ct.slot i).key = k

/-- No element has the key `k`. -/
structure Absent (k : ℕ × Bytes) (ct : Calltable) : Prop where
  inv : ct.TableInv
  ne : ∀ j, (ct.slot j).isUsed → (ct.slot j).key ≠ k

lemma Holds.next (hop : plain.allowed ct op) (hfree : ¬Frees i ct op) (h : Holds i k ct) :
    Holds i k (plain.next ct op) := by
  obtain ⟨hu, hk⟩ := used_next h.inv hop hfree h.used
  exact ⟨h.inv.next hop, hu, hk.trans h.key⟩

lemma Absent.next (hop : plain.allowed ct op) (hadd : ¬AddsKey k op) (h : Absent k ct) :
    Absent k (plain.next ct op) := by
  refine ⟨h.inv.next hop, fun j hj hk => ?_⟩
  rcases used_of_used_next h.inv hop hj with ⟨hu, hk'⟩ | ha
  · exact h.ne j hu (hk'.symm.trans hk)
  · exact hadd (hk ▸ ha)

/-- The pass that frees the element leaves the key absent. -/
lemma Holds.freed (h : Holds i k ct) {currtime : ℤ} (hd : ct.due currtime (ct.slot i)) :
    Absent k (ct.doCleanup currtime).1 := by
  refine ⟨h.inv.doCleanup currtime, fun j hj hk => ?_⟩
  obtain ⟨hdj, hs⟩ := slot_of_used_doCleanup hj
  -- an element with the key that stays would be the one that is freed
  rw [hs] at hj hk
  have hji := h.inv.uniqueKeys j i hj h.used (hk.trans h.key.symm)
  exact hdj (hji ▸ hd)

lemma Holds.find (h : Holds i k ct) {callId : Bytes} (hk : keyOf callId = k) :
    ct.findByCallId callId = some i := by
  rw [findByCallId_eq_lookup, h.inv.uniqueKeys.lookup_eq_some_iff CalltableElement.isUsed_zero]
  exact ⟨h.used, h.key.trans hk.symm⟩

lemma Absent.find (h : Absent k ct) {callId : Bytes} (hk : keyOf callId = k) :
    ct.findByCallId callId = none := by
  rw [findByCallId_eq_none_iff]
  intro j hj
  rw [hk]
  exact h.ne j hj

/-- A call that has just been added is in the element whose index `add` returned. -/
lemma holds_add (h : ct.TableInv) {callId : Bytes} (hnone : ct.findByCallId callId = none)
    (caller callee : Bytes) (time : ℤ) :
    Holds ct.addIdx (keyOf callId) (ct.add callId caller callee time).2.1 := by
  refine ⟨h.add hnone caller callee time, ?_, ?_⟩
  · rw [slot_add, if_pos rfl]
    rfl
  · rw [slot_add, if_pos rfl, CalltableElement.key_init]

lemma tableInv_run (h : ct.TableInv) {ops : List TableOp} (hleg : plain.Legal ct ops) :
    (plain.run ct ops).TableInv :=
  Machine.run_of_along (fun _ _ hop hct => hct.next hop) hleg h

lemma holds_run (h : Holds i k ct) {ops : List TableOp} (hleg : plain.Legal ct ops)
    (hkeep : plain.Along (fun ct op => ¬Frees i ct op) ct ops) :
    Holds i k (plain.run ct ops) :=
  Machine.run_of_along (fun _ _ hop hct => hct.next hop.1 hop.2) (hleg.and hkeep) h

lemma absent_run (h : Absent k ct) {ops : List TableOp} (hleg : plain.Legal ct ops)
    (hadd : plain.Along (fun _ op => ¬AddsKey k op) ct ops) :
    Absent k (plain.run ct ops) :=
  Machine.run_of_along (fun _ _ hop hct => hct.next hop.1 hop.2) (hleg.and hadd) h

/-- **Identity of calls over whole histories.**  After every legal history of operations from
the empty table, used elements have different keys and at most four different pairs each, and
the index returned by an `add` is the one that `find_by_call_id` gives for the key of the new
call: from the `add` on as long as no pass has freed the element, and not any more after the
pass that frees it, until the key is added again. -/
theorem call_identity (eraseNonT38 : Bool) (optAbsoluteTimeout : ℤ) (ops : List TableOp)
    (hleg : plain.Legal (create eraseNonT38 optAbsoluteTimeout) ops) :
    let start := create eraseNonT38 optAbsoluteTimeout
    let ct := plain.run start ops
    (∀ i j, (ct.slot i).isUsed → (ct.slot j).isUsed → i ≠ j →
      (ct.slot i).key ≠ (ct.slot j).key) ∧
    (∀ i, FlowsDistinct (ct.slot i)) ∧
    ∀ pre callId caller callee time post, ops = pre ++ .add callId caller callee time :: post →
      let added := (plain.run start pre).add callId caller callee time
      (plain.Along (fun ct op => ¬Frees added.1 ct op) added.2.1 post →
        ∀ callId', keyOf callId' = keyOf callId → ct.findByCallId callId' = some added.1) ∧
      ∀ kept currtime post', post = kept ++ .cleanup currtime :: post' →
        plain.Along (fun ct op => ¬Frees added.1 ct op) added.2.1 kept →
        Frees added.1 (plain.run added.2.1 kept) (.cleanup currtime) →
        (∀ op ∈ post', ¬AddsKey (keyOf callId) op) →
        ∀ callId', keyOf callId' = keyOf callId → ct.findByCallId callId' = none := by
  intro start ct
  have hinv := tableInv_run (tableInv_create eraseNonT38 optAbsoluteTimeout) hleg
  refine ⟨fun i j hi hj hij hk => hij (hinv.uniqueKeys i j hi hj hk), hinv.flowsDistinct, ?_⟩
  rintro pre callId caller callee time post rfl added
  obtain ⟨hpre, hadd, hpost⟩ := plain.legal_append.mp hleg
  have hpreinv := tableInv_run (tableInv_create eraseNonT38 optAbsoluteTimeout) hpre
  have hholds : Holds added.1 (keyOf callId) added.2.1 := holds_add hpreinv hadd _ _ _
  have hrun : ct = plain.run added.2.1 post := plain.run_append _ _ _
  refine ⟨fun hkeep callId' hk => ?_, ?_⟩
  · rw [hrun]
    exact (holds_run hholds hpost hkeep).find hk
  · -- the call is held up to the pass that frees it, and its key is absent from there on
    rintro kept currtime post' rfl hkeep hfree hadds callId' hk
    obtain ⟨hkept, -, hpost'⟩ := plain.legal_append.mp hpost
    have habsent := (holds_run hholds hkept hkeep).freed hfree
    rw [hrun, plain.run_append]
    exact (absent_run habsent hpost' (plain.along_of_forall hadds)).find hk

/-- A call is added, registers a flow, survives a pass and expires in the next one. -/
def expiringCall : List TableOp :=
  [.find (ascii "a"), .add (ascii "a") [] [] 1000, .write 0 (.addIpPort 1 5060),
    .cleanup 1200, .cleanup 1400]

theorem call_identity_expiringCall :
    (plain.run (create false 3600) (expiringCall.take 4)).findByCallId (ascii "a") = some 0 ∧
      (plain.run (create false 3600) expiringCall).findByCallId (ascii "a") = none := by
  constructor
  · have h := call_identity false 3600 (expiringCall.take 4) (by decide +kernel)
    exact (h.2.2 [.find (ascii "a")] _ _ _ _ _ rfl).1 (by decide +kernel) _ rfl
  · have h := call_identity false 3600 expiringCall (by decide +kernel)
    exact (h.2.2 [.find (ascii "a")] _ _ _ _ _ rfl).2 [.write 0 (.addIpPort 1 5060),
      .cleanup 1200] 1400 [] rfl (by decide +kernel) (by decide +kernel) (by simp) _ rfl

end Calltable

end PcapSipDump
