import PcapSipDump.CallTable.FlowSearch

/-!
# The lookup of a flow as an operation

`find_ip_port_ssrc` writes the SSRC of the packet into the flow that it has found, and its own test
reads SSRCs.  But a flow that has been passed over is not the one that is written to, and the one
that is written to takes the SSRC before and after.  So the search is stable: a second lookup finds
the same flow and changes nothing, and lookups of different pairs of address and port commute.
-/

namespace PcapSipDump

open Lib Lib.SlotTable

namespace Calltable

variable {ct ct' : Calltable} {addr addr' : UInt32} {port port' : UInt16} {ssrc ssrc' : UInt32}
  {f g : Flow}

/-- The flow has the address and the port, and its call has not seen a BYE or its SSRC is the given
one. -/
def Matches (ct : Calltable) (addr : UInt32) (port : UInt16) (ssrc : UInt32) (f : Flow) : Prop :=
  ct.HasFlow addr port f ∧ (ct.flowBye f = false ∨ ct.flowSsrc f = ssrc)

/-- The flow is the first one that matches. -/
def FirstMatch (ct : Calltable) (addr : UInt32) (port : UInt16) (ssrc : UInt32) (f : Flow) : Prop :=
  ct.Matches addr port ssrc f ∧ ∀ g, ct.Matches addr port ssrc g → ¬g.Before f

lemma matches_iff :
    ct.Matches addr port ssrc f ↔ ct.HasFlow addr port f ∧ ct.flowTakes ssrc f := by
  rw [Matches, flowTakes_iff]

lemma findFlow_eq_some_iff_firstMatch :
    ct.findFlow addr port ssrc = some f ↔ ct.FirstMatch addr port ssrc f := by
  simp only [findFlow_eq_some_iff, FirstMatch, matches_iff, ← Bool.not_eq_true]
  constructor
  · rintro ⟨hf, htakes, hbefore⟩
    exact ⟨⟨hf, htakes⟩, fun g hg hlt => hbefore g hg.1 hlt hg.2⟩
  · rintro ⟨⟨hf, htakes⟩, hfirst⟩
    exact ⟨hf, htakes, fun g hg hlt htakes' => hfirst g ⟨hg, htakes'⟩ hlt⟩

lemma findFlow_eq_none_iff_not_matches :
    ct.findFlow addr port ssrc = none ↔ ∀ f, ¬ct.Matches addr port ssrc f := by
  simp only [findFlow_eq_none_iff, matches_iff, not_and, Bool.not_eq_true]

/-- The flow that is found is in the vector. -/
lemma lt_length_of_findFlow (h : ct.findFlow addr port ssrc = some f) : f.1 < ct.table.length :=
  (mem_flows.mp (findFlow_some h).1).1

/-! ### What the write to the flow changes -/

/-- The table with the SSRC of one flow recorded. -/
def record (ct : Calltable) (f : Flow) (ssrc : UInt32) : Calltable :=
  ct.modify f.1 (CalltableElement.setSsrc f.2 ssrc)

lemma slot_record (hf : f.1 < ct.table.length) (ssrc : UInt32) (k : ℕ) :
    (ct.record f ssrc).slot k =
      if k = f.1 then (ct.slot k).setSsrc f.2 ssrc else ct.slot k :=
  slot_modify_of_lt hf _ k

lemma hasFlow_record (hf : f.1 < ct.table.length) :
    (ct.record f ssrc').HasFlow addr port g ↔ ct.HasFlow addr port g := by
  rw [HasFlow, slot_record hf]
  split <;> exact Iff.rfl

lemma flowBye_record (hf : f.1 < ct.table.length) (ssrc : UInt32) (g : Flow) :
    (ct.record f ssrc).flowBye g = ct.flowBye g := by
  rw [flowBye, slot_record hf]
  split <;> rfl

lemma flowSsrc_record (hf : f.1 < ct.table.length) (ssrc : UInt32) (g : Flow) :
    (ct.record f ssrc).flowSsrc g = if g = f then ssrc else ct.flowSsrc g := by
  obtain ⟨i, j⟩ := f
  obtain ⟨k, l⟩ := g
  rw [flowSsrc, slot_record hf]
  by_cases hk : k = i
  · subst hk
    by_cases hl : l = j
    · simp [CalltableElement.setSsrc, hl]
    · simp [CalltableElement.setSsrc, hl]
  · simp [hk]

/-- Recording an SSRC neither adds nor removes a match, where it is recorded in no candidate or in
one that takes the same SSRC anyway. -/
lemma matches_record (hf : f.1 < ct.table.length)
    (h : ct.HasFlow addr port f → ct.Matches addr port ssrc f ∧ ssrc' = ssrc) :
    (ct.record f ssrc').Matches addr port ssrc g ↔ ct.Matches addr port ssrc g := by
  rw [Matches, Matches, hasFlow_record hf, flowBye_record hf, flowSsrc_record hf]
  refine and_congr_right fun hg => ?_
  by_cases hgf : g = f
  · subst hgf
    obtain ⟨hmatch, rfl⟩ := h hg
    rw [if_pos rfl]
    exact iff_of_true (Or.inr rfl) hmatch.2
  · rw [if_neg hgf]

lemma findFlow_congr (h : ∀ g, ct'.Matches addr port ssrc g ↔ ct.Matches addr port ssrc g) :
    ct'.findFlow addr port ssrc = ct.findFlow addr port ssrc := by
  apply Option.ext
  intro f
  rw [findFlow_eq_some_iff_firstMatch, findFlow_eq_some_iff_firstMatch, FirstMatch, FirstMatch]
  simp only [h]

/-- Two recordings in different flows commute. -/
lemma record_comm (hne : f ≠ g) : (ct.record f ssrc).record g ssrc' =
    (ct.record g ssrc').record f ssrc := by
  obtain ⟨i, j⟩ := f
  obtain ⟨k, l⟩ := g
  simp only [record, modify]
  by_cases hik : i = k
  · subst hik
    have hjl : j ≠ l := fun h => hne (by rw [h])
    rw [List.modify_modify_eq, List.modify_modify_eq]
    congr 2
    funext e
    simp only [Function.comp_apply, CalltableElement.setSsrc, Function.update_comm hjl]
  · rw [List.modify_modify_ne _ _ _ hik]

/-! ### The lookup -/

lemma findIpPortSsrc_of_some (h : ct.findFlow addr port ssrc = some f) :
    ct.findIpPortSsrc addr port ssrc = (some f, ct.record f ssrc) := by
  rw [findIpPortSsrc, h]
  rfl

lemma findIpPortSsrc_of_none (h : ct.findFlow addr port ssrc = none) :
    ct.findIpPortSsrc addr port ssrc = (none, ct) := by
  rw [findIpPortSsrc, h]

lemma findIpPortSsrc_fst (ct : Calltable) (addr : UInt32) (port : UInt16) (ssrc : UInt32) :
    (ct.findIpPortSsrc addr port ssrc).1 = ct.findFlow addr port ssrc := by
  rcases h : ct.findFlow addr port ssrc with _ | f
  · rw [findIpPortSsrc_of_none h]
  · rw [findIpPortSsrc_of_some h]

/-- The lookup of another pair finds what it would have found without the recording. -/
lemma findFlow_record_of_ne (hf : ct.HasFlow addr port f) (hne : (addr, port) ≠ (addr', port'))
    (ssrc ssrc' : UInt32) :
    (ct.record f ssrc).findFlow addr' port' ssrc' = ct.findFlow addr' port' ssrc' := by
  have hlt : f.1 < ct.table.length := (mem_flows.mp (hasFlow_iff.mp hf).1).1
  refine findFlow_congr fun g => matches_record hlt fun hf' => ?_
  obtain ⟨haddr, hport⟩ := hf.pair_eq hf'
  exact absurd (by rw [haddr, hport]) hne

/-- The lookup that has found a flow finds it again. -/
lemma findFlow_record_self (h : ct.findFlow addr port ssrc = some f) :
    (ct.record f ssrc).findFlow addr port ssrc = some f := by
  have hfirst := findFlow_eq_some_iff_firstMatch.mp h
  rw [← h]
  exact findFlow_congr fun g => matches_record (lt_length_of_findFlow h) fun _ => ⟨hfirst.1, rfl⟩

lemma record_record (f : Flow) (ssrc : UInt32) :
    (ct.record f ssrc).record f ssrc = ct.record f ssrc := by
  simp only [record, modify, List.modify_modify_eq]
  congr 2
  funext e
  simp only [Function.comp_apply, CalltableElement.setSsrc, Function.update_idem]

/-- A second lookup repeats the first one. -/
lemma findIpPortSsrc_twice (ct : Calltable) (addr : UInt32) (port : UInt16) (ssrc : UInt32) :
    (ct.findIpPortSsrc addr port ssrc).2.findIpPortSsrc addr port ssrc =
      ct.findIpPortSsrc addr port ssrc := by
  rcases h : ct.findFlow addr port ssrc with _ | f
  · rw [findIpPortSsrc_of_none h]
    exact findIpPortSsrc_of_none h
  · rw [findIpPortSsrc_of_some h, findIpPortSsrc_of_some (findFlow_record_self h), record_record]

/-- Lookups of different pairs commute. -/
lemma findIpPortSsrc_comm (ct : Calltable) (hne : (addr, port) ≠ (addr', port'))
    (ssrc ssrc' : UInt32) :
    (ct.findIpPortSsrc addr port ssrc).2.findIpPortSsrc addr' port' ssrc' =
      ((ct.findIpPortSsrc addr' port' ssrc').1,
        ((ct.findIpPortSsrc addr' port' ssrc').2.findIpPortSsrc addr port ssrc).2) := by
  rcases h : ct.findFlow addr port ssrc with _ | f
  · rw [findIpPortSsrc_of_none h]
    rcases h' : ct.findFlow addr' port' ssrc' with _ | g
    · rw [findIpPortSsrc_of_none h', findIpPortSsrc_of_none h]
    · have hg := (findFlow_eq_some_iff_firstMatch.mp h').1.1
      have hkept := (findFlow_record_of_ne hg hne.symm ssrc' ssrc).trans h
      rw [findIpPortSsrc_of_some h', findIpPortSsrc_of_none hkept]
  · have hf := (findFlow_eq_some_iff_firstMatch.mp h).1.1
    rw [findIpPortSsrc_of_some h]
    rcases h' : ct.findFlow addr' port' ssrc' with _ | g
    · have hkept := (findFlow_record_of_ne hf hne ssrc ssrc').trans h'
      rw [findIpPortSsrc_of_none hkept, findIpPortSsrc_of_none h', findIpPortSsrc_of_some h]
    · have hg := (findFlow_eq_some_iff_firstMatch.mp h').1.1
      have hfg : f ≠ g := by
        rintro rfl
        obtain ⟨haddr, hport⟩ := hf.pair_eq hg
        exact hne (by rw [haddr, hport])
      have hkept := (findFlow_record_of_ne hf hne ssrc ssrc').trans h'
      have hkept' := (findFlow_record_of_ne hg hne.symm ssrc' ssrc).trans h
      rw [findIpPortSsrc_of_some hkept, findIpPortSsrc_of_some h', findIpPortSsrc_of_some hkept',
        record_comm hfg]

/-- **The lookup is a stable search for the first match.**  It finds a flow exactly when some flow
matches, and then the first one, records the SSRC in this flow and changes nothing else; otherwise
it changes nothing.  A second lookup finds the same and leaves the table as it is, and lookups of
two different pairs of address and port find the same and leave the same table in either order. -/
theorem findIpPortSsrc_firstMatch (ct : Calltable) (addr : UInt32) (port : UInt16)
    (ssrc : UInt32) :
    ((ct.findIpPortSsrc addr port ssrc).1.isSome ↔ ∃ f, ct.Matches addr port ssrc f) ∧
      (∀ i j, (ct.findIpPortSsrc addr port ssrc).1 = some (i, j) →
        ct.FirstMatch addr port ssrc (i, j) ∧
          (ct.findIpPortSsrc addr port ssrc).2 = { ct with
            table := ct.table.set i { ct.slot i with
              ssrc := Function.update (ct.slot i).ssrc j ssrc } }) ∧
      ((ct.findIpPortSsrc addr port ssrc).1 = none → (ct.findIpPortSsrc addr port ssrc).2 = ct) ∧
      (ct.findIpPortSsrc addr port ssrc).2.findIpPortSsrc addr port ssrc =
        ((ct.findIpPortSsrc addr port ssrc).1, (ct.findIpPortSsrc addr port ssrc).2) ∧
      ∀ addr' port' ssrc', (addr, port) ≠ (addr', port') →
        let first := ct.findIpPortSsrc addr port ssrc
        let second := first.2.findIpPortSsrc addr' port' ssrc'
        let first' := ct.findIpPortSsrc addr' port' ssrc'
        let second' := first'.2.findIpPortSsrc addr port ssrc
        second.1 = first'.1 ∧ second'.1 = first.1 ∧ second.2 = second'.2 := by
  refine ⟨?_, fun i j h => ?_, fun h => ?_, findIpPortSsrc_twice ct addr port ssrc, ?_⟩
  · rw [findIpPortSsrc_fst]
    rcases h : ct.findFlow addr port ssrc with _ | f
    · have hno := findFlow_eq_none_iff_not_matches.mp h
      simp [hno]
    · exact iff_of_true rfl ⟨f, (findFlow_eq_some_iff_firstMatch.mp h).1⟩
  · rw [findIpPortSsrc_fst] at h
    refine ⟨findFlow_eq_some_iff_firstMatch.mp h, ?_⟩
    rw [findIpPortSsrc_of_some h, record, modify,
      modify_eq_set_at CalltableElement.zero]
    rfl
  · rw [findIpPortSsrc_fst] at h
    rw [findIpPortSsrc_of_none h]
  · intro addr' port' ssrc' hne first second first' second'
    have hcomm := findIpPortSsrc_comm ct hne ssrc ssrc'
    have hcomm' := findIpPortSsrc_comm ct hne.symm ssrc' ssrc
    exact ⟨(Prod.ext_iff.mp hcomm).1, (Prod.ext_iff.mp hcomm').1, (Prod.ext_iff.mp hcomm).2⟩

end Calltable

end PcapSipDump
