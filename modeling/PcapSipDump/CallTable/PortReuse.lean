import PcapSipDump.CallTable.FlowSearch

/-!
# Reused addresses and ports

When two calls have registered the same address and port, a lookup with an SSRC that was not looked
up there before finds the first of them in the order of the table that has seen no BYE, whichever
has registered last (`reused_port_iff`).  The reason is an invariant of all histories: an SSRC that
is recorded for a flow is zero or comes from a lookup of the flow's address and port
(`SsrcsFrom`).
-/

namespace PcapSipDump

open Lib Lib.SlotTable

/-- A lookup of an address and a port with an SSRC. -/
abbrev SsrcLookup := UInt32 × UInt16 × UInt32

/-- The lookup that an operation makes. -/
def TableOp.ssrcLookup : TableOp → List SsrcLookup
  | .findIpPortSsrc addr port ssrc => [(addr, port, ssrc)]
  | _ => []

/-- The SSRCs that are recorded in an element come from the lookups `seen`, each from one of its own
address and port; where none is recorded there is a zero. -/
structure SsrcsFrom (seen : List SsrcLookup) (e : CalltableElement) : Prop where
  zero_of_le : ∀ j : Fin maxIpPerCall, e.ipN ≤ j.val → e.ssrc j = 0
  mem_of_lt : ∀ j : Fin maxIpPerCall, j.val < e.ipN →
    e.ssrc j = 0 ∨ (e.ip j, e.port j, e.ssrc j) ∈ seen

variable {seen : List SsrcLookup} {e : CalltableElement}

namespace SsrcsFrom

lemma zero : SsrcsFrom seen CalltableElement.zero :=
  ⟨fun _ _ => rfl, fun _ _ => Or.inl rfl⟩

lemma append (h : SsrcsFrom seen e) (more : List SsrcLookup) : SsrcsFrom (seen ++ more) e :=
  ⟨h.zero_of_le, fun j hj => (h.mem_of_lt j hj).imp_right (List.mem_append_left more)⟩

lemma init (callId caller callee : Lib.CString.Bytes) (time : ℤ) :
    SsrcsFrom seen (CalltableElement.zero.init callId caller callee time) :=
  ⟨fun _ _ => rfl, fun _ _ => Or.inl rfl⟩

/-- A flow that is registered has no SSRC yet. -/
lemma addIpPort (h : SsrcsFrom seen e) (addr : UInt32) (port : UInt16) :
    SsrcsFrom seen (e.addIpPort addr port) := by
  rcases e.addIpPort_eq_or addr port with he | ⟨hlt, -, he⟩
  · rwa [he]
  · rw [he]
    refine ⟨fun j hj => h.zero_of_le j (Nat.le_of_succ_le hj), fun j hj => ?_⟩
    by_cases hnew : j = ⟨e.ipN, hlt⟩
    · subst hnew
      exact Or.inl (h.zero_of_le _ (le_refl _))
    · have hold : j.val < e.ipN := by
        have hne : j.val ≠ e.ipN := fun heq => hnew (Fin.ext heq)
        have hj' : j.val < e.ipN + 1 := hj
        omega
      simpa only [Function.update_of_ne hnew] using h.mem_of_lt j hold

lemma apply (h : SsrcsFrom seen e) (w : ElementWrite) : SsrcsFrom seen (w.apply e) := by
  cases w with
  | addIpPort addr port => exact h.addIpPort addr port
  | _ => exact ⟨h.zero_of_le, h.mem_of_lt⟩

/-- Recording an SSRC that was looked up with the address and the port of the flow. -/
lemma setSsrc (h : SsrcsFrom seen e) {j : Fin maxIpPerCall} (hj : j.val < e.ipN) {ssrc : UInt32}
    (hmem : (e.ip j, e.port j, ssrc) ∈ seen) : SsrcsFrom seen (e.setSsrc j ssrc) := by
  refine ⟨fun k hk => ?_, fun k hk => ?_⟩
  · have hne : k ≠ j := by
      rintro rfl
      exact absurd hj (Nat.not_lt.mpr hk)
    show Function.update e.ssrc j ssrc k = 0
    rw [Function.update_of_ne hne]
    exact h.zero_of_le k hk
  · show Function.update e.ssrc j ssrc k = 0 ∨
      (e.ip k, e.port k, Function.update e.ssrc j ssrc k) ∈ _
    by_cases hkj : k = j
    · subst hkj
      rw [Function.update_self]
      exact Or.inr hmem
    · rw [Function.update_of_ne hkj]
      exact h.mem_of_lt k hk

end SsrcsFrom

namespace Calltable

variable {ct : Calltable} {addr : UInt32} {port : UInt16} {ssrc : UInt32}

/-- **Where SSRCs come from**, after one more operation. -/
lemma ssrcsFrom_next {op : TableOp} (hop : plain.allowed ct op) (hinv : ct.TableInv)
    (h : ∀ i, SsrcsFrom seen (ct.slot i)) (i : ℕ) :
    SsrcsFrom (seen ++ op.ssrcLookup) ((plain.next ct op).slot i) := by
  cases op with
  | find callId => exact (h i).append _
  | add callId caller callee time =>
    rw [show plain.next ct (.add callId caller callee time) =
      (ct.add callId caller callee time).2.1 from rfl, slot_add]
    split
    · -- the element that is taken was not in use
      rename_i hi
      rw [hi, hinv.unusedZero _ ct.isUsed_addIdx]
      exact SsrcsFrom.init callId caller callee time
    · exact (h i).append _
  | write k w =>
    rw [show plain.next ct (.write k w) = ct.modify k w.apply from rfl, slot_modify_of_used hop]
    split
    · exact ((h i).append _).apply w
    · exact (h i).append _
  | findIpPortSsrc addr port ssrc =>
    rcases ct.findIpPortSsrc_cases addr port ssrc with ⟨-, he⟩ | ⟨k, j, hf, he⟩
    · rw [show plain.next ct (.findIpPortSsrc addr port ssrc) =
        (ct.findIpPortSsrc addr port ssrc).2 from rfl, he]
      exact (h i).append _
    · rw [show plain.next ct (.findIpPortSsrc addr port ssrc) =
        (ct.findIpPortSsrc addr port ssrc).2 from rfl, he,
        slot_modify_of_used (hinv.unusedZero.used_of_findFlow hf)]
      split
      · rename_i hi
        subst hi
        obtain ⟨hj, hip, hport⟩ := (findFlow_eq_some_iff.mp hf).1
        refine ((h i).append _).setSsrc hj ?_
        rw [hip, hport]
        exact List.mem_append_right _ (List.mem_singleton.mpr rfl)
      · exact (h i).append _
  | cleanup currtime =>
    rw [show plain.next ct (.cleanup currtime) = (ct.doCleanup currtime).1 from rfl, slot_doCleanup]
    split
    · exact SsrcsFrom.zero
    · exact (h i).append _

lemma ssrcsFrom_run {ops : List TableOp} (hleg : plain.Legal ct ops) (hinv : ct.TableInv)
    (h : ∀ i, SsrcsFrom seen (ct.slot i)) (i : ℕ) :
    SsrcsFrom (seen ++ ops.flatMap TableOp.ssrcLookup) ((plain.run ct ops).slot i) := by
  induction ops generalizing ct seen with
  | nil => simpa using h i
  | cons op ops ih =>
    have hnext := ih hleg.2 (hinv.next hleg.1) (ssrcsFrom_next hleg.1 hinv h)
    rw [List.append_assoc] at hnext
    exact hnext

/-- The flow is open to a new SSRC: its call has seen no BYE, or the SSRC is zero and none is
recorded for the flow. -/
def OpenTo (ct : Calltable) (ssrc : UInt32) (f : Flow) : Prop :=
  ct.flowBye f = false ∨ ssrc = 0 ∧ ct.flowSsrc f = 0

/-- A flow takes an SSRC that was not looked up with its pair only if it is open to it. -/
lemma flowTakes_iff_openTo (hfrom : ∀ i, SsrcsFrom seen (ct.slot i)) {addr : UInt32}
    {port : UInt16} {ssrc : UInt32} (hfresh : (addr, port, ssrc) ∉ seen) {g : Flow}
    (hg : ct.HasFlow addr port g) : ct.flowTakes ssrc g ↔ ct.OpenTo ssrc g := by
  rw [flowTakes_iff, OpenTo]
  refine or_congr_right ⟨fun hssrc => ?_, fun h => h.2.trans h.1.symm⟩
  obtain ⟨hlt, hip, hport⟩ := hg
  rcases (hfrom g.1).mem_of_lt g.2 hlt with hzero | hmem
  · exact ⟨hssrc.symm.trans hzero, hzero⟩
  · have hssrc' : (ct.slot g.1).ssrc g.2 = ssrc := hssrc
    rw [hip, hport, hssrc'] at hmem
    exact absurd hmem hfresh

/-- **Which call a reused address and port belong to.**  After every history a lookup with an SSRC
that was not looked up there before returns a call with this address and port exactly when the
call has seen no BYE and every call with the address and the port in a lower slot has seen one;
a zero SSRC is also taken by a call with a BYE whose flow has no SSRC recorded. -/
theorem reused_port_iff (eraseNonT38 : Bool) (absoluteTimeout : ℤ) (ops : List TableOp)
    (hleg : plain.Legal (create eraseNonT38 absoluteTimeout) ops) (addr : UInt32) (port : UInt16)
    (ssrc : UInt32) (hnew : ∀ op ∈ ops, op ≠ .findIpPortSsrc addr port ssrc) (f : Flow) :
    let ct := plain.run (create eraseNonT38 absoluteTimeout) ops
    ct.HasFlow addr port f →
      ((ct.findIpPortSsrc addr port ssrc).1 = some f ↔
        ct.OpenTo ssrc f ∧ ∀ g, ct.HasFlow addr port g → g.1 < f.1 → ¬ct.OpenTo ssrc g) := by
  intro ct hf
  have hinv : ct.TableInv := by
    refine Machine.run_of_along (P := fun ct : Calltable => ct.TableInv)
      (fun ct op hop h => h.next hop) hleg (tableInv_create _ _)
  have hfrom : ∀ i, SsrcsFrom (ops.flatMap TableOp.ssrcLookup) (ct.slot i) := by
    have hzero : ∀ i, SsrcsFrom [] ((create eraseNonT38 absoluteTimeout).slot i) := by
      intro i
      rw [slot_create]
      exact SsrcsFrom.zero
    exact ssrcsFrom_run hleg (tableInv_create _ _) hzero
  have hfresh : (addr, port, ssrc) ∉ ops.flatMap TableOp.ssrcLookup := by
    intro hmem
    obtain ⟨op, hop, hlookup⟩ := List.mem_flatMap.mp hmem
    cases op with
    | findIpPortSsrc addr' port' ssrc' =>
      obtain heq := List.mem_singleton.mp hlookup
      simp only [Prod.mk.injEq] at heq
      obtain ⟨rfl, rfl, rfl⟩ := heq
      exact hnew _ hop rfl
    | _ => exact absurd hlookup List.not_mem_nil
  have htakes : ∀ g, ct.HasFlow addr port g → (ct.flowTakes ssrc g ↔ ct.OpenTo ssrc g) :=
    fun g hg => flowTakes_iff_openTo hfrom hfresh hg
  have hreturn : (ct.findIpPortSsrc addr port ssrc).1 = ct.findFlow addr port ssrc := by
    rcases ct.findIpPortSsrc_cases addr port ssrc with ⟨hn, he⟩ | ⟨i, j, hs, he⟩
    · rw [he, hn]
    · rw [he, hs]
  rw [hreturn, findFlow_eq_some_iff, htakes f hf]
  constructor
  · rintro ⟨-, hopen, hbefore⟩
    refine ⟨hopen, fun g hg hlt hgopen => ?_⟩
    have hno := hbefore g hg (Or.inl hlt)
    rw [← htakes g hg, hno] at hgopen
    exact absurd hgopen (by decide)
  · rintro ⟨hopen, hlower⟩
    refine ⟨hf, hopen, fun g hg hbefore => ?_⟩
    rcases hbefore with hlt | ⟨heq, hlt⟩
    · rw [← Bool.not_eq_true, htakes g hg]
      exact hlower g hg hlt
    · -- one call has the pair once
      obtain ⟨i, j⟩ := f
      obtain ⟨k, l⟩ := g
      obtain rfl : k = i := heq
      have hjl := (hinv.flowsDistinct k).inj l j hg.1 hf.1 (hg.2.1.trans hf.2.1.symm)
        (hg.2.2.trans hf.2.2.symm)
      rw [hjl] at hlt
      exact absurd hlt (lt_irrefl _)

/-- Call `a` and then call `b` register 10.0.0.1, port 4000. -/
def twoOwners : List TableOp :=
  [.add (Lib.CString.ascii "a") [] [] 1000, .write 0 (.addIpPort 0x0100000a 4000),
    .add (Lib.CString.ascii "b") [] [] 1001, .write 1 (.addIpPort 0x0100000a 4000)]

/-- After a BYE of the first call a new SSRC belongs to the second one. -/
theorem reused_port_bye :
    let ct := plain.run (create false 300) (twoOwners ++ [.write 0 .bye])
    (ct.findIpPortSsrc 0x0100000a 4000 7).1 = some (1, 0) := by
  intro ct
  refine (reused_port_iff false 300 (twoOwners ++ [.write 0 .bye]) (by decide +kernel)
    0x0100000a 4000 7 (by simp [twoOwners]) (1, 0) (by decide +kernel)).mpr ⟨?_, ?_⟩
  · exact Or.inl (by decide +kernel)
  · rintro ⟨i, j⟩ - hlt
    obtain rfl : i = 0 := Nat.lt_one_iff.mp hlt
    have hbye : ct.flowBye (0, j) = true := by
      show (ct.slot 0).hadBye = true
      decide +kernel
    rintro (hopen | ⟨hzero, -⟩)
    · exact absurd (hbye.symm.trans hopen) (by decide)
    · exact absurd hzero (by decide)

/-- Without a BYE a new SSRC belongs to the first call, although the second has registered last. -/
theorem reused_port_false :
    let ct := plain.run (create false 300) twoOwners
    plain.Legal (create false 300) twoOwners ∧ twoOwners.flatMap TableOp.ssrcLookup = [] ∧
      ct.HasFlow 0x0100000a 4000 (0, 0) ∧ ct.HasFlow 0x0100000a 4000 (1, 0) ∧
      (ct.findIpPortSsrc 0x0100000a 4000 7).1 = some (0, 0) := by
  decide +kernel

end Calltable

end PcapSipDump
