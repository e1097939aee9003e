import PcapSipDump.CallTable.CallIdIndex

/-!
# What a pass leaves in the caches

`do_cleanup` zeroes an element before it reads the pairs and the Call-ID to drop from the
caches.  So a pass retires the entries of the elements it frees exactly when there is nothing
to retire but the empty Call-ID: the freed elements have an empty Call-ID, and no positive
entry of the flow cache refers to them (`cleanup_retires_iff`).

As long as all passes are of this kind the caches are faithful: a cached Call-ID leads to a used
element with its key, a positive flow entry to a registered flow with its pair.
-/

namespace PcapSipDump

open Lib Lib.CString Lib.SlotTable

namespace CachedCalltable

/-- No Call-ID leads to an unused element, and no positive flow entry refers to an unused
element or to a flow that the element does not have. -/
structure Retired (K : CachedCalltable) : Prop where
  callId : ∀ callId i, K.callIdCache callId = some i → (K.slot i).isUsed
  flow : ∀ ap i j ssrc, K.cache ap = some (some ((i, j), ssrc)) →
    (K.slot i).isUsed ∧ j.val < (K.slot i).ipN

/-- Lookups resolve to calls and flows that are what was looked up. -/
structure Resolves (K : CachedCalltable) : Prop where
  callId : ∀ callId i, K.findByCallId callId = some i →
    (K.slot i).isUsed ∧ (K.slot i).key = keyOf callId
  flow : ∀ addr port ssrc i j, (K.findIpPortSsrc addr port ssrc).1 = some (i, j) →
    (K.slot i).isUsed ∧ j.val < (K.slot i).ipN ∧
      (K.slot i).ip j = addr ∧ (K.slot i).port j = port

/-- The caches index the table: every entry leads to a used element with the Call-ID or the
pair, and every used element is indexed under a Call-ID. -/
structure Faithful (K : CachedCalltable) : Prop where
  unusedZero : K.UnusedZero
  callId : ∀ callId i, K.callIdCache callId = some i →
    (K.slot i).isUsed ∧ (K.slot i).key = keyOf callId
  indexed : ∀ i, (K.slot i).isUsed → ∃ callId, K.callIdCache callId = some i
  flow : ∀ ap i j ssrc, K.cache ap = some (some ((i, j), ssrc)) →
    j.val < (K.slot i).ipN ∧ (K.slot i).ip j = ap.addr ∧ (K.slot i).port j = ap.port

/-- The passes that leave nothing stale. -/
def RetireCondition (K : CachedCalltable) : TableOp → Prop
  | .cleanup currtime => ∀ i, K.due currtime (K.slot i) →
      (K.slot i).callIdLen = 0 ∧ ∀ ap j ssrc, K.cache ap ≠ some (some ((i, j), ssrc))
  | _ => True

/-- After the operation, if it is a pass, the caches have no entry of a freed element. -/
def PassRetires (K : CachedCalltable) : TableOp → Prop
  | .cleanup currtime => (K.doCleanup currtime).1.Retired
  | _ => True

variable {K : CachedCalltable}

/-- Only the empty Call-ID has the key of an element with the empty Call-ID. -/
lemma eq_nil_of_key_eq {e : CalltableElement} {callId : Bytes} (hkey : e.key = keyOf callId)
    (hlen : e.callIdLen = 0) : callId = [] :=
  List.eq_nil_of_length_eq_zero ((congrArg Prod.fst hkey).symm.trans hlen)

lemma Faithful.used_of_flow (h : K.Faithful) {ap : AddrPort} {i : ℕ} {j : Fin maxIpPerCall}
    {ssrc : UInt32} (hc : K.cache ap = some (some ((i, j), ssrc))) : (K.slot i).isUsed :=
  h.unusedZero.used_of_ipN_pos (Nat.zero_lt_of_lt (h.flow ap i j ssrc hc).1)

lemma Faithful.retired (h : K.Faithful) : K.Retired :=
  ⟨fun callId i hc => (h.callId callId i hc).1,
    fun ap i j ssrc hc => ⟨h.used_of_flow hc, (h.flow ap i j ssrc hc).1⟩⟩

/-- The caches are as faithful to a table with the same identities and flows. -/
lemma Faithful.of_table {K' : CachedCalltable} (h : K.Faithful)
    (hcache : ∀ ap i j ssrc, K'.cache ap = some (some ((i, j), ssrc)) →
      (∃ ssrc', K.cache ap = some (some ((i, j), ssrc'))) ∨
        j.val < (K'.slot i).ipN ∧ (K'.slot i).ip j = ap.addr ∧ (K'.slot i).port j = ap.port)
    (hcallId : K'.callIdCache = K.callIdCache) (hzero : K'.UnusedZero)
    (hslot : ∀ i, (K'.slot i).isUsed = (K.slot i).isUsed ∧ (K'.slot i).key = (K.slot i).key ∧
      ∀ j, j.val < (K.slot i).ipN → j.val < (K'.slot i).ipN ∧
        (K'.slot i).ip j = (K.slot i).ip j ∧ (K'.slot i).port j = (K.slot i).port j) :
    K'.Faithful where
  unusedZero := hzero
  callId callId i hc := by
    rw [hcallId] at hc
    rw [(hslot i).1, (hslot i).2.1]
    exact h.callId callId i hc
  indexed i hu := by
    rw [(hslot i).1] at hu
    rw [hcallId]
    exact h.indexed i hu
  flow ap i j ssrc hc := by
    rcases hcache ap i j ssrc hc with ⟨ssrc', hc'⟩ | hnew
    · obtain ⟨hj, hip, hport⟩ := h.flow ap i j ssrc' hc'
      obtain ⟨hj', hip', hport'⟩ := (hslot i).2.2 j hj
      exact ⟨hj', hip'.trans hip, hport'.trans hport⟩
    · exact hnew

/-- A write to a used element in place, with the flow cache as it was. -/
lemma Faithful.modify (h : K.Faithful) {i : ℕ} (hi : (K.slot i).isUsed)
    {f : CalltableElement → CalltableElement} (hu : ∀ e, (f e).isUsed = e.isUsed)
    (hk : ∀ e, (f e).key = e.key)
    (hf : ∀ e (j : Fin maxIpPerCall), j.val < e.ipN →
      j.val < (f e).ipN ∧ (f e).ip j = e.ip j ∧ (f e).port j = e.port j) :
    (K.modify i f).Faithful := by
  refine h.of_table (fun ap i' j ssrc hc => Or.inl ⟨ssrc, hc⟩) rfl (h.unusedZero.modify hi hu)
    fun l => ?_
  have hs : (K.modify i f).slot l = if l = i then f (K.slot l) else K.slot l :=
    Calltable.slot_modify_of_used hi f l
  rw [hs]
  split
  · exact ⟨hu _, hk _, fun j hj => hf _ j hj⟩
  · exact ⟨rfl, rfl, fun j hj => ⟨hj, rfl, rfl⟩⟩

/-- A new entry of the flow cache, negative or for a registered flow with the pair. -/
lemma Faithful.setCache (h : K.Faithful) {ap : AddrPort} {v : CeIrtpSsrc}
    (hv : ∀ i j ssrc, v = some ((i, j), ssrc) →
      j.val < (K.slot i).ipN ∧ (K.slot i).ip j = ap.addr ∧ (K.slot i).port j = ap.port) :
    (K.setCache ap v).Faithful := by
  refine h.of_table (fun ap' i j ssrc hc => ?_) rfl h.unusedZero
    fun l => ⟨rfl, rfl, fun j hj => ⟨hj, rfl, rfl⟩⟩
  by_cases hap : ap' = ap
  · subst hap
    right
    simp only [CachedCalltable.setCache, Function.update_self, Option.some.injEq] at hc
    exact hv i j ssrc hc
  · left
    simp only [CachedCalltable.setCache, Function.update_of_ne hap] at hc
    exact ⟨ssrc, hc⟩

lemma Faithful.setSsrc (h : K.Faithful) {i : ℕ} (hi : (K.slot i).isUsed) (j : Fin maxIpPerCall)
    (ssrc : UInt32) : (K.modify i (CalltableElement.setSsrc j ssrc)).Faithful :=
  h.modify hi (fun _ => rfl) (fun _ => rfl) fun _ _ hl => ⟨hl, rfl, rfl⟩

lemma Faithful.fullSearch (h : K.Faithful) (addr : UInt32) (port : UInt16) (ssrc : UInt32) :
    (K.fullSearch addr port ssrc).2.Faithful := by
  rcases hf : K.findFlow addr port ssrc with _ | ⟨i, j⟩
  · rw [fullSearch_of_none hf]
    exact h.setCache (by simp)
  · rw [fullSearch_of_some hf]
    obtain ⟨hmem, his, -⟩ := Calltable.findFlow_some hf
    obtain ⟨-, hj⟩ := Calltable.mem_flows.mp hmem
    simp only [Calltable.flowIs, Bool.and_eq_true, beq_iff_eq] at his
    have hset : (K.setCache ⟨addr, port⟩ (some ((i, j), ssrc))).Faithful := by
      refine h.setCache ?_
      rintro i' j' ssrc' ⟨⟩
      exact ⟨hj, his.2, his.1⟩
    exact hset.setSsrc (h.unusedZero.used_of_findFlow hf) j ssrc

/-- Dropping an entry of the flow cache. -/
lemma Faithful.eraseCache (h : K.Faithful) (ap : AddrPort) :
    Faithful { K with cache := Function.update K.cache ap none } := by
  refine h.of_table (fun ap' i j ssrc hc => Or.inl ⟨ssrc, ?_⟩) rfl h.unusedZero
    fun l => ⟨rfl, rfl, fun j hj => ⟨hj, rfl, rfl⟩⟩
  by_cases hap : ap' = ap
  · subst hap
    simp at hc
  · simpa [hap] using hc

lemma Faithful.findIpPortSsrc (h : K.Faithful) (addr : UInt32) (port : UInt16) (ssrc : UInt32) :
    (K.findIpPortSsrc addr port ssrc).2.Faithful := by
  rcases hc : K.cache ⟨addr, port⟩ with _ | _ | ⟨⟨i, j⟩, remembered⟩
  · rw [findIpPortSsrc_of_missing hc]
    exact h.fullSearch addr port ssrc
  · rw [findIpPortSsrc_of_negative hc]
    exact h
  · by_cases hs : ssrc = remembered
    · subst hs
      rw [findIpPortSsrc_of_same hc]
      exact h
    · rcases hb : (K.slot i).hadBye with _ | _
      · -- a new SSRC in a call that goes on: recorded for the flow of the entry
        rw [findIpPortSsrc_of_open hc hs hb]
        have hflow := h.flow _ _ _ _ hc
        have hu := h.used_of_flow hc
        refine (h.setSsrc hu j ssrc).setCache ?_
        rintro i' j' ssrc' ⟨⟩
        have hslot := Calltable.slot_modify_of_used hu (CalltableElement.setSsrc j ssrc) i
        simp only [CachedCalltable.modify, hslot]
        exact hflow
      · -- a new SSRC after the BYE: the entry is dropped and the table searched
        rw [findIpPortSsrc_of_bye hc hs hb]
        exact (h.eraseCache _).fullSearch addr port ssrc

lemma Faithful.addIpPort (h : K.Faithful) {i : ℕ} (hi : (K.slot i).isUsed) (addr : UInt32)
    (port : UInt16) : (K.addIpPort i addr port).Faithful := by
  by_cases hlt : (K.slot i).ipN < maxIpPerCall
  · rcases ht : (K.slot i).tracks addr port with _ | _
    · rw [addIpPort_of_new hlt ht]
      have hmod : (K.modify i (CalltableElement.addIpPort addr port)).Faithful :=
        h.modify hi (ElementWrite.addIpPort addr port).isUsed_apply
          (ElementWrite.addIpPort addr port).key_apply
          fun e j hj => (ElementWrite.addIpPort addr port).flow_apply hj
      refine hmod.setCache ?_
      rintro i' j' ssrc' ⟨⟩
      have hslot := Calltable.slot_modify_of_used hi (CalltableElement.addIpPort addr port) i
      simp only [CachedCalltable.modify, hslot, if_true, CalltableElement.addIpPort,
        dif_pos hlt, ht, Bool.false_eq_true, if_false, Function.update_self, and_self, and_true]
      exact Nat.lt_succ_self _
    · rw [addIpPort_refused fun _ => ht]
      exact h
  · rw [addIpPort_refused fun h => absurd h hlt]
    exact h

lemma Faithful.write (h : K.Faithful) {i : ℕ} (hi : (K.slot i).isUsed) (w : ElementWrite) :
    (K.write i w).Faithful := by
  have hmod : (K.modify i w.apply).Faithful :=
    h.modify hi w.isUsed_apply w.key_apply fun e j hj => w.flow_apply hj
  cases w with
  | addIpPort addr port => exact h.addIpPort hi addr port
  | _ => exact hmod

/-- Adding a Call-ID that is not in the index. -/
lemma Faithful.add (h : K.Faithful) {callId : Bytes} (hnone : K.findByCallId callId = none)
    (caller callee : Bytes) (time : ℤ) :
    (K.add callId caller callee time).2.1.Faithful := by
  have hslot := K.slot_add callId caller callee time
  have hfree := K.isUsed_addIdx
  have hne : ∀ l, (K.slot l).isUsed → l ≠ K.addIdx := by
    rintro l hl rfl
    simp [hfree] at hl
  refine ⟨h.unusedZero.add callId caller callee time, fun callId' i hc => ?_, fun i hu => ?_,
    fun ap i j ssrc hc => ?_⟩
  · by_cases hid : callId' = callId
    · subst hid
      obtain rfl : K.addIdx = i := by simpa [CachedCalltable.add, Calltable.add] using hc
      simp only [CachedCalltable.add, hslot, if_true]
      exact ⟨rfl, CalltableElement.key_init _ _ _ _ _⟩
    · have hc' : K.callIdCache callId' = some i := by
        simpa [CachedCalltable.add, hid] using hc
      obtain ⟨hu, hk⟩ := h.callId callId' i hc'
      simp only [CachedCalltable.add, hslot, if_neg (hne i hu)]
      exact ⟨hu, hk⟩
  · by_cases hi : i = K.addIdx
    · exact ⟨callId, by simp [CachedCalltable.add, Calltable.add, hi]⟩
    · simp only [CachedCalltable.add, hslot, if_neg hi] at hu
      obtain ⟨callId', hc⟩ := h.indexed i hu
      have hid : callId' ≠ callId := by
        rintro rfl
        rw [CachedCalltable.findByCallId, hc] at hnone
        exact absurd hnone (by simp)
      exact ⟨callId', by simp [CachedCalltable.add, hid, hc]⟩
  · have hu := h.used_of_flow hc
    simp only [CachedCalltable.add, hslot, if_neg (hne i hu)]
    exact h.flow ap i j ssrc hc

/-- A pass that frees only elements with nothing to retire. -/
lemma Faithful.doCleanup (h : K.Faithful) {currtime : ℤ}
    (hcond : K.RetireCondition (.cleanup currtime)) : (K.doCleanup currtime).1.Faithful := by
  have hslot : ∀ i, ¬K.due currtime (K.slot i) →
      (K.doCleanup currtime).1.slot i = K.slot i := by
    intro i hi
    rw [K.toCalltable_doCleanup, Calltable.slot_doCleanup, if_neg hi]
  refine ⟨?_, fun callId i hc => ?_, fun i hu => ?_, fun ap i j ssrc hc => ?_⟩
  · rw [K.toCalltable_doCleanup]
    exact h.unusedZero.doCleanup currtime
  · -- an entry that is left is for an element that is left, unless its Call-ID is empty
    rw [callIdCache_doCleanup] at hc
    obtain ⟨hkeep, hc⟩ : ¬(callId = [] ∧ K.table.any (K.due currtime)) ∧
        K.callIdCache callId = some i := by simpa using hc
    obtain ⟨hu, hkey⟩ := h.callId callId i hc
    have hi : ¬K.due currtime (K.slot i) := by
      intro hi
      have hnil : callId = [] :=
        eq_nil_of_key_eq hkey (hcond i hi).1
      exact hkeep ⟨hnil, (K.any_due_iff currtime).mpr ⟨i, hi⟩⟩
    rw [hslot i hi]
    exact ⟨hu, hkey⟩
  · rw [K.toCalltable_doCleanup] at hu
    obtain ⟨hi, hs⟩ := Calltable.slot_of_used_doCleanup hu
    rw [hs] at hu
    obtain ⟨callId, hc⟩ := h.indexed i hu
    refine ⟨callId, ?_⟩
    rw [callIdCache_doCleanup, if_neg, hc]
    rintro ⟨rfl, hany⟩
    -- the element that is freed is indexed under the empty Call-ID too
    obtain ⟨i', hi'⟩ := (K.any_due_iff currtime).mp hany
    obtain ⟨callId', hc'⟩ := h.indexed i' (Calltable.used_of_due hi')
    obtain rfl := eq_nil_of_key_eq (h.callId callId' i' hc').2 (hcond i' hi').1
    obtain rfl : i = i' := by simpa [hc] using hc'
    exact hi hi'
  · rw [cache_doCleanup] at hc
    have hi : ¬K.due currtime (K.slot i) := fun hi => (hcond i hi).2 ap j ssrc hc
    rw [hslot i hi]
    exact h.flow ap i j ssrc hc

/-- A pass from faithful caches leaves nothing stale exactly when it frees only elements with
nothing to retire. -/
lemma Faithful.passRetires_iff (h : K.Faithful) (currtime : ℤ) :
    (K.doCleanup currtime).1.Retired ↔ K.RetireCondition (.cleanup currtime) := by
  constructor
  · intro hret i hi
    have hfreed : ((K.doCleanup currtime).1.slot i).isUsed = false := by
      rw [K.toCalltable_doCleanup, Calltable.slot_doCleanup, if_pos hi]
      rfl
    constructor
    · by_contra hlen
      obtain ⟨callId, hc⟩ := h.indexed i (Calltable.used_of_due hi)
      have hne : callId ≠ [] := by
        rintro rfl
        exact hlen (congrArg Prod.fst (h.callId [] i hc).2)
      have hc' : (K.doCleanup currtime).1.callIdCache callId = some i := by
        rw [callIdCache_doCleanup, if_neg (fun hn => hne hn.1), hc]
      have hu := hret.callId callId i hc'
      exact absurd (hfreed.symm.trans hu) (by decide)
    · intro ap j ssrc hc
      have hu := (hret.flow ap i j ssrc (by rwa [cache_doCleanup])).1
      exact absurd (hfreed.symm.trans hu) (by decide)
  · exact fun hcond => (h.doCleanup hcond).retired

/-- Every legal operation that meets the condition keeps the caches faithful. -/
lemma Faithful.next (h : K.Faithful) {op : TableOp} (hop : cached.allowed K op)
    (hcond : K.RetireCondition op) : (cached.next K op).Faithful := by
  cases op with
  | find callId => exact h
  | add callId caller callee time => exact h.add hop caller callee time
  | write i w => exact h.write hop w
  | findIpPortSsrc addr port ssrc => exact h.findIpPortSsrc addr port ssrc
  | cleanup currtime => exact h.doCleanup hcond

/-- A full search answers with a registered flow that has the pair. -/
lemma fullSearch_some {addr : UInt32} {port : UInt16} {ssrc : UInt32} {f : Flow}
    (h : (K.fullSearch addr port ssrc).1 = some f) : K.findFlow addr port ssrc = some f := by
  rcases hf : K.findFlow addr port ssrc with _ | g
  · rw [fullSearch_of_none hf] at h
    cases h
  · rw [fullSearch_of_some hf] at h
    exact h

/-- Faithful caches resolve to what was looked up. -/
lemma Faithful.resolves (h : K.Faithful) : K.Resolves := by
  refine ⟨h.callId, fun addr port ssrc i j hfound => ?_⟩
  have hsearch : K.findFlow addr port ssrc = some (i, j) →
      (K.slot i).isUsed ∧ j.val < (K.slot i).ipN ∧
        (K.slot i).ip j = addr ∧ (K.slot i).port j = port := by
    intro hf
    obtain ⟨hmem, his, -⟩ := Calltable.findFlow_some hf
    simp only [Calltable.flowIs, Bool.and_eq_true, beq_iff_eq] at his
    exact ⟨h.unusedZero.used_of_findFlow hf, (Calltable.mem_flows.mp hmem).2, his.2, his.1⟩
  have hentry : ∀ i' j' ssrc', K.cache ⟨addr, port⟩ = some (some ((i', j'), ssrc')) →
      (i', j') = (i, j) → (K.slot i).isUsed ∧ j.val < (K.slot i).ipN ∧
        (K.slot i).ip j = addr ∧ (K.slot i).port j = port := by
    rintro i' j' ssrc' hc ⟨⟩
    exact ⟨h.used_of_flow hc, h.flow _ _ _ _ hc⟩
  rcases hc : K.cache ⟨addr, port⟩ with _ | _ | ⟨⟨i', j'⟩, remembered⟩
  · rw [findIpPortSsrc_of_missing hc] at hfound
    exact hsearch (fullSearch_some hfound)
  · rw [findIpPortSsrc_of_negative hc] at hfound
    cases hfound
  · by_cases hs : ssrc = remembered
    · subst hs
      rw [findIpPortSsrc_of_same hc] at hfound
      exact hentry i' j' ssrc hc (Option.some.inj hfound)
    · rcases hb : (K.slot i').hadBye with _ | _
      · rw [findIpPortSsrc_of_open hc hs hb] at hfound
        exact hentry i' j' remembered hc (Option.some.inj hfound)
      · rw [findIpPortSsrc_of_bye hc hs hb] at hfound
        have hf := fullSearch_some hfound
        exact hsearch hf

lemma faithful_create (eraseNonT38 : Bool) (optAbsoluteTimeout : ℤ) :
    (create eraseNonT38 optAbsoluteTimeout).Faithful where
  unusedZero := (Calltable.tableInv_create eraseNonT38 optAbsoluteTimeout).unusedZero
  callId callId i hc := by simp [create] at hc
  indexed i hu := by
    rw [create, Calltable.slot_create] at hu
    exact absurd hu (by decide)
  flow ap i j ssrc hc := by simp [create] at hc

/-- **When a pass retires the cache entries.**  In a legal history from the empty table every
pass leaves caches without entries of freed elements exactly when every pass frees only elements
with the empty Call-ID that no positive flow entry refers to; and then every lookup in every
state resolves to a call or a flow with what was looked up. -/
theorem cleanup_retires_iff (eraseNonT38 : Bool) (optAbsoluteTimeout : ℤ) (ops : List TableOp)
    (hleg : cached.Legal (create eraseNonT38 optAbsoluteTimeout) ops) :
    (cached.Along PassRetires (create eraseNonT38 optAbsoluteTimeout) ops ↔
        cached.Along RetireCondition (create eraseNonT38 optAbsoluteTimeout) ops) ∧
      (cached.Along RetireCondition (create eraseNonT38 optAbsoluteTimeout) ops →
        cached.Always Resolves (create eraseNonT38 optAbsoluteTimeout) ops) := by
  have hstart := faithful_create eraseNonT38 optAbsoluteTimeout
  constructor
  · refine Machine.along_iff_along (fun K op hop h hcond => h.next hop hcond)
      (fun K op hop h => ?_) hleg hstart
    cases op with
    | cleanup currtime => exact h.passRetires_iff currtime
    | _ => exact Iff.rfl
  · intro hcond
    rw [Machine.always_iff_prefix]
    rintro pre ⟨suf, rfl⟩
    have hpre := (hleg.and hcond)
    rw [Machine.along_append] at hpre
    have hrun := Machine.run_of_along (fun K op hC (h : K.Faithful) => h.next hC.1 hC.2)
      hpre.1 hstart
    exact hrun.resolves

/-- A call with the empty Call-ID and no registered pair expires. -/
theorem cleanup_retires_emptyCallId :
    cached.Along PassRetires (create false 3600) [.add [] [] [] 1000, .cleanup 1400] := by
  refine (cleanup_retires_iff false 3600 _ (by decide +kernel)).1.mpr ⟨trivial, ?_, trivial⟩
  intro i hi
  refine ⟨?_, fun ap j ssrc => by simp [cached, create, CachedCalltable.add]⟩
  by_cases h0 : i = 0
  · subst h0
    decide +kernel
  · have hslot : (cached.next (create false 3600) (.add [] [] [] 1000)).slot i =
        CalltableElement.zero := by
      refine (Calltable.slot_add _ _ _ _ _ i).trans ?_
      rw [if_neg (fun hi => h0 (hi.trans (by decide)))]
      rfl
    rw [hslot]
    rfl

/-- After the pass that frees a call with a registered flow, the Call-ID and the pair of the
call still lead to its slot; and once the slot is another call's, they lead to that call. -/
theorem cleanup_retires_false :
    let ops : List TableOp := [.add (ascii "a") [] [] 1000, .write 0 (.addIpPort 1 2),
      .cleanup 1400]
    let K := cached.run (create false 3600) ops
    let K' := cached.run (create false 3600) (ops ++ [.add (ascii "b") [] [] 1400])
    cached.Legal (create false 3600) (ops ++ [.add (ascii "b") [] [] 1400]) ∧
      K.callIdCache (ascii "a") = some 0 ∧ K.cache ⟨1, 2⟩ = some (some ((0, 0), 0)) ∧
      (K.slot 0).isUsed = false ∧
      K'.findByCallId (ascii "a") = some 0 ∧ (K'.findIpPortSsrc 1 2 0).1 = some (0, 0) ∧
      (K'.slot 0).key = keyOf (ascii "b") := by
  decide +kernel

end CachedCalltable

end PcapSipDump
