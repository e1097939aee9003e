import PcapSipDump.CallTable.Ops
import PcapSipDump.Lib.FirstMatch

/-!
# The search for a flow

`find_ip_port_ssrc` goes through the flows slot by slot.  What it finds is the first flow, in
this order, that has the address and the port and takes the SSRC (`findFlow_eq_some_iff`).
-/

namespace PcapSipDump

open Lib Lib.SlotTable

/-- The order in which the search meets the flows. -/
def Flow.Before (f g : Flow) : Prop := f.1 < g.1 ∨ (f.1 = g.1 ∧ f.2 < g.2)

instance (f g : Flow) : Decidable (f.Before g) :=
  inferInstanceAs (Decidable (f.1 < g.1 ∨ (f.1 = g.1 ∧ f.2 < g.2)))

lemma Flow.Before.asymm (f g : Flow) (h : f.Before g) : ¬g.Before f := by
  intro h'
  rcases h with h | ⟨h, hlt⟩ <;> rcases h' with h' | ⟨h', hlt'⟩
  · omega
  · omega
  · omega
  · exact absurd hlt' (Fin.lt_asymm hlt)

lemma Flow.before_or_eq_or_after (f g : Flow) : f.Before g ∨ f = g ∨ g.Before f := by
  obtain ⟨i, j⟩ := f
  obtain ⟨k, l⟩ := g
  rcases Nat.lt_trichotomy i k with hik | rfl | hki
  · exact Or.inl (Or.inl hik)
  · rcases lt_trichotomy j l with hjl | rfl | hlj
    · exact Or.inl (Or.inr ⟨rfl, hjl⟩)
    · exact Or.inr (Or.inl rfl)
    · exact Or.inr (Or.inr (Or.inr ⟨rfl, hlj⟩))
  · exact Or.inr (Or.inr (Or.inl hki))

namespace Calltable

variable {ct : Calltable} {addr : UInt32} {port : UInt16} {ssrc : UInt32} {f : Flow}

/-- The flow is registered with the address and the port. -/
def HasFlow (ct : Calltable) (addr : UInt32) (port : UInt16) (f : Flow) : Prop :=
  f.2.val < (ct.slot f.1).ipN ∧ (ct.slot f.1).ip f.2 = addr ∧ (ct.slot f.1).port f.2 = port

instance : Decidable (ct.HasFlow addr port f) :=
  inferInstanceAs (Decidable
    (f.2.val < (ct.slot f.1).ipN ∧ (ct.slot f.1).ip f.2 = addr ∧ (ct.slot f.1).port f.2 = port))

/-- `had_bye` of the call of the flow. -/
abbrev flowBye (ct : Calltable) (f : Flow) : Bool := (ct.slot f.1).hadBye

/-- The recorded SSRC of the flow. -/
abbrev flowSsrc (ct : Calltable) (f : Flow) : UInt32 := (ct.slot f.1).ssrc f.2

lemma hasFlow_iff : ct.HasFlow addr port f ↔ f ∈ ct.flows ∧ ct.flowIs addr port f := by
  obtain ⟨i, j⟩ := f
  simp only [HasFlow, mem_flows, flowIs, Bool.and_eq_true, beq_iff_eq]
  constructor
  · rintro ⟨hj, hip, hport⟩
    have hi : i < ct.table.length := by
      refine lt_length_of_at_ne CalltableElement.zero fun hzero => ?_
      rw [slot, hzero] at hj
      exact absurd hj (Nat.not_lt_zero _)
    exact ⟨⟨hi, hj⟩, hport, hip⟩
  · rintro ⟨⟨-, hj⟩, hport, hip⟩
    exact ⟨hj, hip, hport⟩

lemma flowTakes_iff : ct.flowTakes ssrc f ↔ ct.flowBye f = false ∨ ct.flowSsrc f = ssrc := by
  simp [flowTakes]

lemma flowTakes_eq_false_iff :
    ct.flowTakes ssrc f = false ↔ ct.flowBye f = true ∧ ct.flowSsrc f ≠ ssrc := by
  simp [flowTakes]

/-- The search goes through the flows in their order. -/
lemma pairwise_flows (ct : Calltable) : ct.flows.Pairwise Flow.Before := by
  refine List.pairwise_flatMap.mpr ⟨fun i _ => ?_, List.pairwise_lt_range.imp ?_⟩
  · rw [List.pairwise_map]
    refine ((List.pairwise_lt_finRange _).filter _).imp fun {j k} hjk => ?_
    exact Or.inr ⟨rfl, hjk⟩
  · intro i k hik f hf g hg
    obtain ⟨j, -, rfl⟩ := List.mem_map.mp hf
    obtain ⟨l, -, rfl⟩ := List.mem_map.mp hg
    exact Or.inl hik

/-- **The search finds the first flow** that has the address and the port and takes the SSRC. -/
theorem findFlow_eq_some_iff : ct.findFlow addr port ssrc = some f ↔
    ct.HasFlow addr port f ∧ ct.flowTakes ssrc f ∧
      ∀ g, ct.HasFlow addr port g → g.Before f → ct.flowTakes ssrc g = false := by
  rw [findFlow, find?_eq_some_iff_of_pairwise ct.pairwise_flows Flow.Before.asymm]
  simp only [hasFlow_iff, Bool.and_eq_true, Bool.and_eq_false_iff]
  constructor
  · rintro ⟨hmem, ⟨his, htakes⟩, hbefore⟩
    refine ⟨⟨hmem, his⟩, htakes, fun g hg hgf => ?_⟩
    rcases hbefore g hg.1 hgf with hne | hno
    · exact absurd (hne.symm.trans hg.2) (by decide)
    · exact hno
  · rintro ⟨⟨hmem, his⟩, htakes, hbefore⟩
    refine ⟨hmem, ⟨his, htakes⟩, fun g hg hgf => ?_⟩
    by_cases hgis : ct.flowIs addr port g
    · exact Or.inr (hbefore g ⟨hg, hgis⟩ hgf)
    · exact Or.inl (by simpa using hgis)

lemma findFlow_eq_none_iff : ct.findFlow addr port ssrc = none ↔
    ∀ g, ct.HasFlow addr port g → ct.flowTakes ssrc g = false := by
  simp only [findFlow, List.find?_eq_none, hasFlow_iff, Bool.and_eq_true, not_and,
    Bool.not_eq_true, and_imp]

/-- If some flow has the pair, one of them is the first. -/
lemma exists_first_hasFlow (h : ct.HasFlow addr port f) :
    ∃ f', ct.HasFlow addr port f' ∧ ∀ g, ct.HasFlow addr port g → ¬g.Before f' := by
  obtain ⟨hmem, his⟩ := hasFlow_iff.mp h
  rcases hf : ct.flows.find? (ct.flowIs addr port) with _ | f'
  · exact absurd his (List.find?_eq_none.mp hf f hmem)
  · obtain ⟨hmem', his', hbefore⟩ :=
      (find?_eq_some_iff_of_pairwise ct.pairwise_flows Flow.Before.asymm).mp hf
    refine ⟨f', hasFlow_iff.mpr ⟨hmem', his'⟩, fun g hg hgf => ?_⟩
    obtain ⟨hgmem, hgis⟩ := hasFlow_iff.mp hg
    rw [hbefore g hgmem hgf] at hgis
    exact absurd hgis (by decide)

/-- A flow that no other one comes before comes first. -/
lemma eq_or_after_first {f₀ : Flow} (hfirst : ∀ g, ct.HasFlow addr port g → ¬g.Before f₀)
    (hf : ct.HasFlow addr port f) : f = f₀ ∨ f₀.Before f := by
  rcases Flow.before_or_eq_or_after f f₀ with hlt | heq | hlt
  · exact absurd hlt (hfirst f hf)
  · exact Or.inl heq
  · exact Or.inr hlt

lemma hasFlow_congr {ct' : Calltable} (h : ct'.slot f.1 = ct.slot f.1) :
    ct'.HasFlow addr port f ↔ ct.HasFlow addr port f := by
  rw [HasFlow, HasFlow, h]

/-- The pair of a flow. -/
lemma HasFlow.pair_eq {addr' : UInt32} {port' : UInt16} (h : ct.HasFlow addr port f)
    (h' : ct.HasFlow addr' port' f) : addr' = addr ∧ port' = port :=
  ⟨h'.2.1.symm.trans h.2.1, h'.2.2.symm.trans h.2.2⟩

lemma UnusedZero.used_of_hasFlow (h : ct.UnusedZero) (hf : ct.HasFlow addr port f) :
    (ct.slot f.1).isUsed :=
  h.used_of_ipN_pos (Nat.zero_lt_of_lt hf.1)

end Calltable

end PcapSipDump
