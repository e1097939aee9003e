import PcapSipDump.CallTable.Cache
import PcapSipDump.CallTable.FlowSearch

/-!
# The flow cache against the search

The build with caches answers `find_ip_port_ssrc` from a map from ip:port pairs to one flow or
to nothing.  Run side by side with the plain build on one history without passes, the two agree
as long as (`flowCache_agrees_iff`)

* a pair is registered for a call only while no earlier slot has the pair, or while this call
  and the earlier ones are over and the earlier ones have recorded an SSRC (`RegistrationOk`);
* a packet for a pair whose first call is over comes only with an SSRC that one of the calls that
  are over has recorded, all calls before that one being over too (`LookupOk`).

In terms of the map: an entry for a flow is right when the flows before it that have the pair
would not take what the entry takes, and a negative entry when no flow has the pair (`EntryOk`).
-/

namespace PcapSipDump

open Lib Lib.CString Lib.SlotTable

/-! ### Both builds on one history -/

/-- The operations that histories of the flow cache are made of. -/
def TableOp.IsFlowOp : TableOp → Prop
  | .find _ | .add _ _ _ _ | .findIpPortSsrc _ _ _ | .write _ .bye
  | .write _ (.addIpPort _ _) => True
  | _ => False

/-- The plain build and the one with caches, run side by side on one history without passes. -/
def flowBuilds : Machine (Calltable × CachedCalltable) TableOp where
  next s op := (Calltable.plain.next s.1 op, cached.next s.2 op)
  allowed s op := op.IsFlowOp ∧ ∀ i e, op = .write i e → (s.1.slot i).isUsed

instance : ∀ op, Decidable (TableOp.IsFlowOp op)
  | .find _ | .add _ _ _ _ | .findIpPortSsrc _ _ _ | .write _ .bye
  | .write _ (.addIpPort _ _) => isTrue trivial
  | .cleanup _ | .write _ (.rtp _) | .write _ (.file _ _) | .write _ (.rtpmapEvent _)
  | .write _ .hadT38 => isFalse id

instance (s : Calltable × CachedCalltable) (op : TableOp) : Decidable (flowBuilds.allowed s op) :=
  have : Decidable (∀ i e, op = .write i e → (s.1.slot i).isUsed) :=
    match op with
    | .write i e => decidable_of_iff ((s.1.slot i).isUsed = true) (by simp)
    | .find _ | .add _ _ _ _ | .findIpPortSsrc _ _ _ | .cleanup _ => isTrue (by simp)
  inferInstanceAs (Decidable (op.IsFlowOp ∧ ∀ i e, op = .write i e → (s.1.slot i).isUsed))

/-- The tables are the same, and every lookup finds the same flow in both builds and leaves the
same table. -/
def FlowsAgree (s : Calltable × CachedCalltable) : Prop :=
  s.2.toCalltable = s.1 ∧ ∀ addr port ssrc,
    (s.2.findIpPortSsrc addr port ssrc).1 = (s.1.findIpPortSsrc addr port ssrc).1 ∧
      (s.2.findIpPortSsrc addr port ssrc).2.toCalltable = (s.1.findIpPortSsrc addr port ssrc).2

/-- A pair is registered for slot `i` while no earlier slot has it, or while the call of the slot
and the earlier calls are over and the earlier calls have recorded an SSRC. -/
def RegistrationOk (ct : Calltable) (i : ℕ) (addr : UInt32) (port : UInt16) : Prop :=
  (ct.slot i).ipN < maxIpPerCall → (ct.slot i).tracks addr port = false →
    ∀ g, ct.HasFlow addr port g → g.1 < i →
      (ct.slot i).hadBye ∧ ct.flowBye g ∧ ct.flowSsrc g ≠ 0

/-- A packet comes while the first call that has its pair is not over, or while one of the calls
that are over has recorded its SSRC and the calls before that one are over too. -/
def LookupOk (ct : Calltable) (addr : UInt32) (port : UInt16) (ssrc : UInt32) : Prop :=
  ∀ f, ct.HasFlow addr port f → (∀ g, ct.HasFlow addr port g → ¬g.Before f) → ct.flowBye f →
    ∃ f', ct.HasFlow addr port f' ∧ ct.flowBye f' ∧ ct.flowSsrc f' = ssrc ∧
      ∀ g, ct.HasFlow addr port g → g.Before f' → ct.flowBye g

/-- The operations after which the builds still agree. -/
def FlowCondition (s : Calltable × CachedCalltable) : TableOp → Prop
  | .write i (.addIpPort addr port) => RegistrationOk s.1 i addr port
  | .findIpPortSsrc addr port ssrc => LookupOk s.1 addr port ssrc
  | _ => True

instance (ct : Calltable) (i : ℕ) (addr : UInt32) (port : UInt16) :
    Decidable (RegistrationOk ct i addr port) :=
  decidable_of_iff
    ((ct.slot i).ipN < maxIpPerCall → (ct.slot i).tracks addr port = false →
      ∀ g ∈ ct.flows, ct.flowIs addr port g → g.1 < i →
        (ct.slot i).hadBye ∧ ct.flowBye g ∧ ct.flowSsrc g ≠ 0)
    (by simp only [RegistrationOk, Calltable.hasFlow_iff, and_imp])

instance (ct : Calltable) (addr : UInt32) (port : UInt16) (ssrc : UInt32) :
    Decidable (LookupOk ct addr port ssrc) :=
  decidable_of_iff
    (∀ f ∈ ct.flows, ct.flowIs addr port f →
      (∀ g ∈ ct.flows, ct.flowIs addr port g → ¬g.Before f) → ct.flowBye f →
        ∃ f' ∈ ct.flows, ct.flowIs addr port f' ∧ ct.flowBye f' ∧ ct.flowSsrc f' = ssrc ∧
          ∀ g ∈ ct.flows, ct.flowIs addr port g → g.Before f' → ct.flowBye g)
    (by simp only [LookupOk, Calltable.hasFlow_iff, and_imp, and_assoc])

instance (s : Calltable × CachedCalltable) : ∀ op, Decidable (FlowCondition s op)
  | .write i (.addIpPort addr port) => inferInstanceAs (Decidable (RegistrationOk s.1 i addr port))
  | .findIpPortSsrc addr port ssrc => inferInstanceAs (Decidable (LookupOk s.1 addr port ssrc))
  | .find _ | .add _ _ _ _ | .cleanup _ | .write _ .bye | .write _ (.rtp _)
  | .write _ (.file _ _) | .write _ (.rtpmapEvent _) | .write _ .hadT38 => isTrue trivial

namespace CachedCalltable

/-- The entry of the flow cache for the pair answers like the search. -/
def EntryOk (K : CachedCalltable) (ap : AddrPort) : Prop :=
  match K.cache ap with
  | none => True
  | some none => ∀ f, ¬K.HasFlow ap.addr ap.port f
  | some (some (f, ssrc)) => ∀ g, K.HasFlow ap.addr ap.port g → g.Before f →
      K.flowBye f ∧ K.flowBye g ∧ K.flowSsrc g ≠ ssrc

/-- What holds of the flow cache in every history without passes: its positive entries are
registered flows with the recorded SSRC, and every registered pair has an entry. -/
structure Indexed (K : CachedCalltable) : Prop where
  unusedZero : K.UnusedZero
  distinct : ∀ i, Calltable.FlowsDistinct (K.slot i)
  ssrcZero : ∀ i (j : Fin maxIpPerCall), (K.slot i).ipN ≤ j.val → (K.slot i).ssrc j = 0
  positive : ∀ ap f ssrc, K.cache ap = some (some (f, ssrc)) →
    K.HasFlow ap.addr ap.port f ∧ K.flowSsrc f = ssrc
  covered : ∀ addr port f, K.HasFlow addr port f → K.cache ⟨addr, port⟩ ≠ none

variable {K : CachedCalltable}

/-! ### When lookups agree -/

lemma fullSearch_eq (K : CachedCalltable) (addr : UInt32) (port : UInt16) (ssrc : UInt32) :
    (K.fullSearch addr port ssrc).1 = (K.toCalltable.findIpPortSsrc addr port ssrc).1 ∧
      (K.fullSearch addr port ssrc).2.toCalltable =
        (K.toCalltable.findIpPortSsrc addr port ssrc).2 := by
  rcases hf : K.findFlow addr port ssrc with _ | ⟨i, j⟩
  · rw [fullSearch_of_none hf, Calltable.findIpPortSsrc, hf]
    exact ⟨rfl, rfl⟩
  · rw [fullSearch_of_some hf, Calltable.findIpPortSsrc, hf]
    exact ⟨rfl, rfl⟩

/-- Recording the SSRC that is recorded already changes nothing. -/
lemma modify_setSsrc_self {ct : Calltable} {f : Flow} {ssrc : UInt32}
    (h : ct.flowSsrc f = ssrc) : ct.modify f.1 (CalltableElement.setSsrc f.2 ssrc) = ct := by
  refine Calltable.modify_eq_self ?_
  rw [CalltableElement.setSsrc, ← h, Calltable.flowSsrc, Function.update_eq_self]

/-- A lookup that is answered by a positive entry. -/
lemma findIpPortSsrc_hit {addr : UInt32} {port : UInt16} {ssrc c : UInt32} {f : Flow}
    (hc : K.cache ⟨addr, port⟩ = some (some (f, c))) (hbye : ssrc = c ∨ K.flowBye f = false)
    (hrec : K.flowSsrc f = c) :
    (K.findIpPortSsrc addr port ssrc).1 = some f ∧
      (K.findIpPortSsrc addr port ssrc).2.toCalltable =
        K.toCalltable.modify f.1 (CalltableElement.setSsrc f.2 ssrc) := by
  by_cases hs : ssrc = c
  · subst hs
    rw [findIpPortSsrc_of_same hc]
    exact ⟨rfl, (modify_setSsrc_self hrec).symm⟩
  · rw [findIpPortSsrc_of_open hc hs (hbye.resolve_left hs)]
    exact ⟨rfl, rfl⟩

/-- **When the flow cache agrees with the search.**  All lookups of a pair agree exactly when the
entry for the pair is right. -/
lemma Indexed.agrees_iff (h : K.Indexed) (addr : UInt32) (port : UInt16) :
    (∀ ssrc, (K.findIpPortSsrc addr port ssrc).1 =
        (K.toCalltable.findIpPortSsrc addr port ssrc).1 ∧
      (K.findIpPortSsrc addr port ssrc).2.toCalltable =
        (K.toCalltable.findIpPortSsrc addr port ssrc).2) ↔ K.EntryOk ⟨addr, port⟩ := by
  have hsome : ∀ {ssrc f}, K.findFlow addr port ssrc = some f →
      K.toCalltable.findIpPortSsrc addr port ssrc =
        (some f, K.toCalltable.modify f.1 (CalltableElement.setSsrc f.2 ssrc)) := by
    rintro ssrc ⟨i, j⟩ hf
    rw [Calltable.findIpPortSsrc, hf]
  have hnone : ∀ {ssrc}, K.findFlow addr port ssrc = none →
      K.toCalltable.findIpPortSsrc addr port ssrc = (none, K.toCalltable) := by
    intro ssrc hf
    rw [Calltable.findIpPortSsrc, hf]
  have hplain : ∀ ssrc, (K.toCalltable.findIpPortSsrc addr port ssrc).1 =
      K.findFlow addr port ssrc := by
    intro ssrc
    rcases hf : K.findFlow addr port ssrc with _ | f
    · rw [hnone hf]
    · rw [hsome hf]
  unfold EntryOk
  rcases hc : K.cache ⟨addr, port⟩ with _ | _ | ⟨f, c⟩
  · -- no entry: the search is made
    refine iff_of_true (fun ssrc => ?_) trivial
    rw [findIpPortSsrc_of_missing hc]
    exact K.fullSearch_eq addr port ssrc
  · simp only [findIpPortSsrc_of_negative hc]
    constructor
    · -- a flow takes the SSRC that is recorded for it, so the search would find one
      intro hagree f hf
      have hfound := (hagree (K.flowSsrc f)).1
      rw [hplain, eq_comm, Calltable.findFlow_eq_none_iff] at hfound
      exact (Calltable.flowTakes_eq_false_iff.mp (hfound f hf)).2 rfl
    · intro hno ssrc
      have hnot : K.findFlow addr port ssrc = none :=
        Calltable.findFlow_eq_none_iff.mpr fun g hg => absurd hg (hno g)
      rw [hnone hnot]
      exact ⟨rfl, rfl⟩
  · obtain ⟨hflow, hrec⟩ := h.positive _ f c hc
    constructor
    · -- the search finds the flow of the entry, so it has passed over the flows before
      intro hagree g hg hgf
      have hfound : ∀ ssrc, ssrc = c ∨ K.flowBye f = false →
          K.findFlow addr port ssrc = some f := by
        intro ssrc hs
        rw [← hplain, ← (hagree ssrc).1]
        exact (findIpPortSsrc_hit hc hs hrec).1
      have hbefore : ∀ ssrc, ssrc = c ∨ K.flowBye f = false →
          K.flowBye g = true ∧ K.flowSsrc g ≠ ssrc := fun ssrc hs =>
        Calltable.flowTakes_eq_false_iff.mp
          ((Calltable.findFlow_eq_some_iff.mp (hfound ssrc hs)).2.2 g hg hgf)
      refine ⟨?_, hbefore c (Or.inl rfl)⟩
      -- before the BYE the entry would take the SSRC of the earlier flow as well
      by_contra hbye
      exact (hbefore (K.flowSsrc g) (Or.inr (by simpa using hbye))).2 rfl
    · intro hok ssrc
      by_cases hs : ssrc = c ∨ K.flowBye f = false
      · have hfound : K.findFlow addr port ssrc = some f := by
          refine Calltable.findFlow_eq_some_iff.mpr ⟨hflow, ?_, fun g hg hgf => ?_⟩
          · refine Calltable.flowTakes_iff.mpr (hs.symm.imp_right fun hsc => ?_)
            rw [hsc]
            exact hrec
          · obtain ⟨hbf, hbg, hne⟩ := hok g hg hgf
            have hsc : ssrc = c := hs.resolve_right (by rw [hbf]; decide)
            exact Calltable.flowTakes_eq_false_iff.mpr ⟨hbg, hsc ▸ hne⟩
        rw [hsome hfound]
        exact findIpPortSsrc_hit hc hs hrec
      · -- the entry is dropped, and the search is made
        rw [not_or, Bool.not_eq_false] at hs
        rw [findIpPortSsrc_of_bye hc hs.1 hs.2]
        exact fullSearch_eq _ addr port ssrc

/-! ### Entries of other pairs -/

/-- An entry stays as right as it was when the flows with the pair stay as they were. -/
lemma Indexed.entryOk_congr {K' : CachedCalltable} (h : K.Indexed) {ap : AddrPort}
    (hcache : K'.cache ap = K.cache ap)
    (hflow : ∀ f, K'.HasFlow ap.addr ap.port f ↔ K.HasFlow ap.addr ap.port f)
    (hsame : ∀ f, K.HasFlow ap.addr ap.port f →
      K'.flowBye f = K.flowBye f ∧ K'.flowSsrc f = K.flowSsrc f) :
    K'.EntryOk ap ↔ K.EntryOk ap := by
  unfold EntryOk
  rw [hcache]
  rcases hc : K.cache ap with _ | _ | ⟨f, c⟩
  · exact Iff.rfl
  · exact forall_congr' fun f => not_congr (hflow f)
  · refine forall_congr' fun g => ?_
    rw [hflow]
    refine forall_congr' fun hg => ?_
    rw [(hsame g hg).1, (hsame g hg).2, (hsame f (h.positive ap f c hc).1).1]

/-! ### Additions and BYE -/

lemma addIdx_ne_of_hasFlow (h : K.UnusedZero) {addr : UInt32} {port : UInt16} {f : Flow}
    (hf : K.HasFlow addr port f) : f.1 ≠ K.addIdx := by
  intro hidx
  have hu := h.used_of_hasFlow hf
  rw [hidx, K.isUsed_addIdx] at hu
  exact absurd hu (by decide)

/-- A new call has no flows and touches those of no other call. -/
lemma hasFlow_add (h : K.UnusedZero) (callId caller callee : Bytes) (time : ℤ) {addr : UInt32}
    {port : UInt16} {f : Flow} :
    (K.add callId caller callee time).2.1.HasFlow addr port f ↔ K.HasFlow addr port f := by
  have hslot := K.slot_add callId caller callee time f.1
  by_cases hf : f.1 = K.addIdx
  · rw [if_pos hf] at hslot
    refine iff_of_false (fun hflow => ?_) fun hflow => addIdx_ne_of_hasFlow h hflow hf
    have hlt := hflow.1
    simp only [add] at hlt
    rw [hslot] at hlt
    exact absurd hlt (Nat.not_lt_zero _)
  · rw [if_neg hf] at hslot
    exact Calltable.hasFlow_congr hslot

lemma slot_add_of_hasFlow (h : K.UnusedZero) (callId caller callee : Bytes) (time : ℤ)
    {addr : UInt32} {port : UInt16} {f : Flow} (hf : K.HasFlow addr port f) :
    (K.add callId caller callee time).2.1.slot f.1 = K.slot f.1 :=
  (K.slot_add callId caller callee time f.1).trans (if_neg (addIdx_ne_of_hasFlow h hf))

lemma Indexed.add (h : K.Indexed) (callId caller callee : Bytes) (time : ℤ) :
    (K.add callId caller callee time).2.1.Indexed := by
  have hslot := K.slot_add callId caller callee time
  have hzero : K.slot K.addIdx = CalltableElement.zero := h.unusedZero _ K.isUsed_addIdx
  refine ⟨h.unusedZero.add callId caller callee time, fun i => ?_, fun i j hj => ?_,
    fun ap f ssrc hc => ?_, fun addr port f hf => ?_⟩
  · simp only [CachedCalltable.add, hslot]
    split
    · exact ⟨Nat.zero_le _, fun j k hj => absurd hj (Nat.not_lt_zero _)⟩
    · exact h.distinct i
  · simp only [CachedCalltable.add, hslot] at hj ⊢
    by_cases hi : i = K.addIdx
    · rw [if_pos hi, hi, hzero]
      rfl
    · rw [if_neg hi] at hj ⊢
      exact h.ssrcZero i j hj
  · obtain ⟨hflow, hrec⟩ := h.positive ap f ssrc hc
    refine ⟨(hasFlow_add h.unusedZero _ _ _ _).mpr hflow, ?_⟩
    rw [Calltable.flowSsrc, slot_add_of_hasFlow h.unusedZero _ _ _ _ hflow]
    exact hrec
  · exact h.covered addr port f ((hasFlow_add h.unusedZero _ _ _ _).mp hf)

lemma Indexed.entryOk_add (h : K.Indexed) (callId caller callee : Bytes) (time : ℤ)
    (ap : AddrPort) : (K.add callId caller callee time).2.1.EntryOk ap ↔ K.EntryOk ap := by
  refine h.entryOk_congr rfl (fun f => hasFlow_add h.unusedZero _ _ _ _) fun f hf => ?_
  rw [Calltable.flowBye, Calltable.flowSsrc, slot_add_of_hasFlow h.unusedZero _ _ _ _ hf]
  exact ⟨rfl, rfl⟩

/-- A write that keeps the pairs of the element and what is recorded for them. -/
lemma Indexed.modify (h : K.Indexed) {i : ℕ} (hi : (K.slot i).isUsed)
    {f : CalltableElement → CalltableElement} (hu : ∀ e, (f e).isUsed = e.isUsed)
    (hf : ∀ e, (f e).ipN = e.ipN ∧ (f e).ip = e.ip ∧ (f e).port = e.port ∧
      (f e).ssrc = e.ssrc) :
    (K.modify i f).Indexed := by
  have hslot := Calltable.slot_modify_of_used hi f
  have hsame : ∀ l, ((K.modify i f).slot l).ipN = (K.slot l).ipN ∧
      ((K.modify i f).slot l).ip = (K.slot l).ip ∧
      ((K.modify i f).slot l).port = (K.slot l).port ∧
      ((K.modify i f).slot l).ssrc = (K.slot l).ssrc := by
    intro l
    simp only [CachedCalltable.modify, hslot]
    split
    · exact hf _
    · exact ⟨rfl, rfl, rfl, rfl⟩
  have hflow : ∀ addr port g, (K.modify i f).HasFlow addr port g ↔ K.HasFlow addr port g := by
    intro addr port g
    obtain ⟨hn, hip, hport, -⟩ := hsame g.1
    rw [Calltable.HasFlow, Calltable.HasFlow, hn, hip, hport]
  refine ⟨h.unusedZero.modify hi hu, fun l => ?_, fun l j hj => ?_, fun ap g ssrc hc => ?_,
    fun addr port g hg => h.covered addr port g ((hflow addr port g).mp hg)⟩
  · obtain ⟨hn, hip, hport, -⟩ := hsame l
    refine ⟨by rw [hn]; exact (h.distinct l).ipN_le, fun j k hj hk => ?_⟩
    rw [hn] at hj hk
    rw [hip, hport]
    exact (h.distinct l).inj j k hj hk
  · rw [(hsame l).1] at hj
    rw [(hsame l).2.2.2]
    exact h.ssrcZero l j hj
  · obtain ⟨hg, hrec⟩ := h.positive ap g ssrc hc
    refine ⟨(hflow _ _ g).mpr hg, ?_⟩
    rw [Calltable.flowSsrc, (hsame g.1).2.2.2]
    exact hrec

/-- The write of a BYE. -/
def bye (K : CachedCalltable) (i : ℕ) : CachedCalltable := K.modify i (ElementWrite.apply .bye)

lemma Indexed.bye (h : K.Indexed) {i : ℕ} (hi : (K.slot i).isUsed) : (K.bye i).Indexed :=
  h.modify hi (fun _ => rfl) fun _ => ⟨rfl, rfl, rfl, rfl⟩

/-- A BYE keeps right entries right: what the earlier flows did not take they still do not
take. -/
lemma entryOk_bye {i : ℕ} (hi : (K.slot i).isUsed) {ap : AddrPort} (hok : K.EntryOk ap) :
    (K.bye i).EntryOk ap := by
  have hslot := Calltable.slot_modify_of_used hi (ElementWrite.apply .bye)
  have hflow : ∀ f, (K.bye i).HasFlow ap.addr ap.port f → K.HasFlow ap.addr ap.port f := by
    intro f hf
    simp only [Calltable.HasFlow, CachedCalltable.bye, CachedCalltable.modify, hslot] at hf
    split at hf <;> exact hf
  have hbye : ∀ f, K.flowBye f = true → (K.bye i).flowBye f = true := by
    intro f hf
    simp only [Calltable.flowBye, CachedCalltable.bye, CachedCalltable.modify, hslot]
    split
    · rfl
    · exact hf
  have hssrc : ∀ f, (K.bye i).flowSsrc f = K.flowSsrc f := by
    intro f
    simp only [Calltable.flowSsrc, CachedCalltable.bye, CachedCalltable.modify, hslot]
    split <;> rfl
  unfold EntryOk at hok ⊢
  have hcache : (K.bye i).cache ap = K.cache ap := rfl
  rw [hcache]
  rcases hc : K.cache ap with _ | _ | ⟨f, c⟩
  · trivial
  · rw [hc] at hok
    exact fun f hf => hok f (hflow f hf)
  · rw [hc] at hok
    intro g hg hgf
    obtain ⟨hbf, hbg, hne⟩ := hok g (hflow g hg) hgf
    rw [hssrc]
    exact ⟨hbye f hbf, hbye g hbg, hne⟩

/-! ### Registrations -/

/-- The element after a registration. -/
lemma slot_addIpPort {i : ℕ} (hi : (K.slot i).isUsed) {addr : UInt32} {port : UInt16}
    (hlt : (K.slot i).ipN < maxIpPerCall) (ht : (K.slot i).tracks addr port = false) (l : ℕ) :
    (K.addIpPort i addr port).slot l = if l = i then
      { K.slot i with
        ip := Function.update (K.slot i).ip ⟨(K.slot i).ipN, hlt⟩ addr
        port := Function.update (K.slot i).port ⟨(K.slot i).ipN, hlt⟩ port
        ipN := (K.slot i).ipN + 1 } else K.slot l := by
  have hslot := Calltable.slot_modify_of_used hi (CalltableElement.addIpPort addr port) l
  rw [addIpPort_of_new hlt ht]
  simp only [setCache, CachedCalltable.modify, hslot]
  by_cases hl : l = i
  · subst hl
    simp only [if_true, CalltableElement.addIpPort, dif_pos hlt, ht, Bool.false_eq_true, if_false]
  · simp only [if_neg hl]

lemma cache_addIpPort {i : ℕ} {addr : UInt32} {port : UInt16}
    (hlt : (K.slot i).ipN < maxIpPerCall) (ht : (K.slot i).tracks addr port = false) :
    (K.addIpPort i addr port).cache = Function.update K.cache ⟨addr, port⟩
      (some (some ((i, ⟨(K.slot i).ipN, hlt⟩), 0))) := by
  rw [addIpPort_of_new hlt ht]
  rfl

/-- The flows after a registration: those before and the new one. -/
lemma hasFlow_addIpPort {i : ℕ} (hi : (K.slot i).isUsed) {addr : UInt32} {port : UInt16}
    (hlt : (K.slot i).ipN < maxIpPerCall) (ht : (K.slot i).tracks addr port = false)
    {addr' : UInt32} {port' : UInt16} {g : Flow} :
    (K.addIpPort i addr port).HasFlow addr' port' g ↔ K.HasFlow addr' port' g ∨
      (g = (i, ⟨(K.slot i).ipN, hlt⟩) ∧ addr = addr' ∧ port = port') := by
  obtain ⟨l, j⟩ := g
  have hslot := slot_addIpPort hi hlt ht l
  by_cases hl : l = i
  · subst hl
    rw [if_pos rfl] at hslot
    simp only [Calltable.HasFlow, hslot, Prod.mk.injEq, true_and]
    by_cases hj : j = ⟨(K.slot l).ipN, hlt⟩
    · subst hj
      simp
    · have hne : j.val ≠ (K.slot l).ipN := fun h => hj (Fin.ext h)
      simp only [Function.update_of_ne hj, hj, false_and, or_false]
      refine and_congr_left fun _ => ?_
      omega
  · rw [if_neg hl] at hslot
    rw [Calltable.hasFlow_congr hslot]
    simp [hl]

/-- What is recorded for a flow, and the BYE of its call, are as before a registration. -/
lemma flow_addIpPort {i : ℕ} (hi : (K.slot i).isUsed) {addr : UInt32} {port : UInt16}
    (hlt : (K.slot i).ipN < maxIpPerCall) (ht : (K.slot i).tracks addr port = false) (g : Flow) :
    (K.addIpPort i addr port).flowBye g = K.flowBye g ∧
      (K.addIpPort i addr port).flowSsrc g = K.flowSsrc g := by
  rw [Calltable.flowBye, Calltable.flowSsrc, slot_addIpPort hi hlt ht]
  split
  · rename_i hg
    rw [Calltable.flowBye, Calltable.flowSsrc, hg]
    exact ⟨rfl, rfl⟩
  · exact ⟨rfl, rfl⟩

/-- A flow of the element that a pair is registered for has another pair. -/
lemma ne_of_not_tracks {i : ℕ} {addr : UInt32} {port : UInt16}
    (ht : (K.slot i).tracks addr port = false) {g : Flow} (hg : K.HasFlow addr port g) :
    g.1 ≠ i := by
  rintro rfl
  exact CalltableElement.tracks_eq_false.mp ht g.2 hg.1 hg.2.1 hg.2.2

lemma Indexed.addIpPort (h : K.Indexed) {i : ℕ} (hi : (K.slot i).isUsed) {addr : UInt32}
    {port : UInt16} (hlt : (K.slot i).ipN < maxIpPerCall)
    (ht : (K.slot i).tracks addr port = false) : (K.addIpPort i addr port).Indexed := by
  have hslot := slot_addIpPort hi hlt ht
  have hflow := flow_addIpPort hi hlt ht
  refine ⟨fun l hl => ?_, fun l => ?_, fun l j hj => ?_, fun ap g c hc => ?_,
    fun addr' port' g hg => ?_⟩
  · by_cases hli : l = i
    · rw [hslot, if_pos hli] at hl
      exact absurd (hl.symm.trans hi) (by decide)
    · rw [hslot, if_neg hli] at hl ⊢
      exact h.unusedZero l hl
  · have hadd := (h.distinct i).addIpPort addr port
    rw [hslot]
    split
    · simpa only [CalltableElement.addIpPort, dif_pos hlt, ht, Bool.false_eq_true, if_false]
        using hadd
    · exact h.distinct l
  · rw [hslot] at hj ⊢
    by_cases hli : l = i
    · rw [if_pos hli] at hj ⊢
      have hlast : (K.slot i).ipN + 1 ≤ j.val := hj
      exact h.ssrcZero i j (by omega)
    · rw [if_neg hli] at hj ⊢
      exact h.ssrcZero l j hj
  · rw [cache_addIpPort hlt ht] at hc
    by_cases hap : ap = ⟨addr, port⟩
    · subst hap
      simp only [Function.update_self, Option.some.injEq, Prod.mk.injEq] at hc
      obtain ⟨rfl, rfl⟩ := hc
      refine ⟨(hasFlow_addIpPort hi hlt ht).mpr (Or.inr ⟨rfl, rfl, rfl⟩), ?_⟩
      rw [(hflow _).2]
      exact h.ssrcZero i _ (le_refl _)
    · rw [Function.update_of_ne hap] at hc
      obtain ⟨hg, hrec⟩ := h.positive ap g c hc
      exact ⟨(hasFlow_addIpPort hi hlt ht).mpr (Or.inl hg), (hflow g).2.trans hrec⟩
  · rw [cache_addIpPort hlt ht]
    by_cases hap : (⟨addr', port'⟩ : AddrPort) = ⟨addr, port⟩
    · rw [hap, Function.update_self]
      simp
    · rw [Function.update_of_ne hap]
      rcases (hasFlow_addIpPort hi hlt ht).mp hg with hg | ⟨-, rfl, rfl⟩
      · exact h.covered addr' port' g hg
      · exact absurd rfl hap

/-- After a registration all entries are right exactly when no flow before the new one that has
the pair would take its packets. -/
lemma Indexed.entryOk_addIpPort (h : K.Indexed) (hok : ∀ ap, K.EntryOk ap) {i : ℕ}
    (hi : (K.slot i).isUsed) {addr : UInt32} {port : UInt16}
    (hlt : (K.slot i).ipN < maxIpPerCall) (ht : (K.slot i).tracks addr port = false) :
    (∀ ap, (K.addIpPort i addr port).EntryOk ap) ↔
      ∀ g, K.HasFlow addr port g → g.1 < i →
        (K.slot i).hadBye ∧ K.flowBye g ∧ K.flowSsrc g ≠ 0 := by
  have hflow := flow_addIpPort hi hlt ht
  have hnew : (K.addIpPort i addr port).EntryOk ⟨addr, port⟩ ↔
      ∀ g, K.HasFlow addr port g → g.1 < i →
        (K.slot i).hadBye ∧ K.flowBye g ∧ K.flowSsrc g ≠ 0 := by
    unfold EntryOk
    rw [cache_addIpPort hlt ht, Function.update_self]
    simp only [(hflow _).1, (hflow _).2, hasFlow_addIpPort hi hlt ht]
    -- the new flow is the last one of its element, and the only one there with the pair
    constructor
    · exact fun hnew g hg hgi => hnew g (Or.inl hg) (Or.inl hgi)
    · rintro hcond g (hg | ⟨rfl, -⟩) hgf
      · rcases hgf with hgi | ⟨hgi, -⟩
        · exact hcond g hg hgi
        · exact absurd hgi (ne_of_not_tracks ht hg)
      · exact absurd hgf (Flow.Before.asymm _ _ hgf)
  constructor
  · exact fun hall => hnew.mp (hall ⟨addr, port⟩)
  · intro hcond ap
    by_cases hap : ap = ⟨addr, port⟩
    · rw [hap]
      exact hnew.mpr hcond
    · refine (h.entryOk_congr ?_ (fun f => ?_) fun f _ => hflow f).mpr (hok ap)
      · rw [cache_addIpPort hlt ht, Function.update_of_ne hap]
      · rw [hasFlow_addIpPort hi hlt ht]
        refine or_iff_left ?_
        rintro ⟨-, rfl, rfl⟩
        exact hap rfl

/-! ### Lookups -/

/-- The flow cache and the table after a lookup that has found a flow. -/
def record (K : CachedCalltable) (ap : AddrPort) (f : Flow) (ssrc : UInt32) : CachedCalltable :=
  (K.modify f.1 (CalltableElement.setSsrc f.2 ssrc)).setCache ap (some (f, ssrc))

/-- **What a lookup can do**: nothing, when the entry answers for this SSRC; record a new SSRC
for the flow of the entry; or record the result of the search. -/
lemma findIpPortSsrc_cases (K : CachedCalltable) (addr : UInt32) (port : UInt16)
    (ssrc : UInt32) :
    ((K.findIpPortSsrc addr port ssrc).2 = K ∧ (K.cache ⟨addr, port⟩ = some none ∨
        ∃ f, K.cache ⟨addr, port⟩ = some (some (f, ssrc)))) ∨
      (∃ f c, K.cache ⟨addr, port⟩ = some (some (f, c)) ∧ K.flowBye f = false ∧
        (K.findIpPortSsrc addr port ssrc).2 = K.record ⟨addr, port⟩ f ssrc) ∨
      ((K.cache ⟨addr, port⟩ = none ∨
          ∃ f c, K.cache ⟨addr, port⟩ = some (some (f, c))) ∧
        ((∃ f, K.findFlow addr port ssrc = some f ∧
            (K.findIpPortSsrc addr port ssrc).2 = K.record ⟨addr, port⟩ f ssrc) ∨
          (K.findFlow addr port ssrc = none ∧
            (K.findIpPortSsrc addr port ssrc).2 = K.setCache ⟨addr, port⟩ none))) := by
  have hfull : (∃ f, K.findFlow addr port ssrc = some f ∧
      (K.fullSearch addr port ssrc).2 = K.record ⟨addr, port⟩ f ssrc) ∨
      (K.findFlow addr port ssrc = none ∧
        (K.fullSearch addr port ssrc).2 = K.setCache ⟨addr, port⟩ none) := by
    rcases hf : K.findFlow addr port ssrc with _ | f
    · rw [fullSearch_of_none hf]
      exact Or.inr ⟨rfl, rfl⟩
    · rw [fullSearch_of_some hf]
      exact Or.inl ⟨f, rfl, rfl⟩
  rcases hc : K.cache ⟨addr, port⟩ with _ | _ | ⟨f, c⟩
  · rw [findIpPortSsrc_of_missing hc]
    exact Or.inr (Or.inr ⟨Or.inl rfl, hfull⟩)
  · rw [findIpPortSsrc_of_negative hc]
    exact Or.inl ⟨rfl, Or.inl rfl⟩
  · by_cases hs : ssrc = c
    · subst hs
      rw [findIpPortSsrc_of_same hc]
      exact Or.inl ⟨rfl, Or.inr ⟨f, rfl⟩⟩
    · rcases hb : K.flowBye f with _ | _
      · rw [findIpPortSsrc_of_open hc hs hb]
        exact Or.inr (Or.inl ⟨f, c, rfl, hb, rfl⟩)
      · rw [findIpPortSsrc_of_bye hc hs hb]
        refine Or.inr (Or.inr ⟨Or.inr ⟨f, c, rfl⟩, ?_⟩)
        -- the entry that is dropped is overwritten by the search
        obtain ⟨L, hL⟩ : ∃ L : CachedCalltable,
            L = { K with cache := Function.update K.cache ⟨addr, port⟩ none } := ⟨_, rfl⟩
        have htable : L.toCalltable = K.toCalltable := by rw [hL]
        rw [← hL]
        rcases hf : K.findFlow addr port ssrc with _ | g
        · rw [fullSearch_of_none (K := L) (htable ▸ hf), hL]
          refine Or.inr ⟨rfl, ?_⟩
          simp only [setCache, Function.update_idem]
        · rw [fullSearch_of_some (K := L) (htable ▸ hf), hL]
          refine Or.inl ⟨g, rfl, ?_⟩
          simp only [record, setCache, CachedCalltable.modify, Function.update_idem]

variable {addr : UInt32} {port : UInt16} {ssrc : UInt32} {f : Flow}

/-- The flows after a lookup. -/
lemma hasFlow_record (h : K.Indexed) (hf : K.HasFlow addr port f) {ap : AddrPort}
    {addr' : UInt32} {port' : UInt16} {g : Flow} :
    (K.record ap f ssrc).HasFlow addr' port' g ↔ K.HasFlow addr' port' g := by
  have hslot := Calltable.slot_modify_of_used (h.unusedZero.used_of_hasFlow hf)
    (CalltableElement.setSsrc f.2 ssrc) g.1
  simp only [Calltable.HasFlow, record, setCache, CachedCalltable.modify, hslot]
  split <;> exact Iff.rfl

lemma flowBye_record (h : K.Indexed) (hf : K.HasFlow addr port f) {ap : AddrPort} (g : Flow) :
    (K.record ap f ssrc).flowBye g = K.flowBye g := by
  have hslot := Calltable.slot_modify_of_used (h.unusedZero.used_of_hasFlow hf)
    (CalltableElement.setSsrc f.2 ssrc) g.1
  simp only [Calltable.flowBye, record, setCache, CachedCalltable.modify, hslot]
  split <;> rfl

lemma flowSsrc_record (h : K.Indexed) (hf : K.HasFlow addr port f) {ap : AddrPort} (g : Flow) :
    (K.record ap f ssrc).flowSsrc g = if g = f then ssrc else K.flowSsrc g := by
  obtain ⟨i, j⟩ := f
  obtain ⟨k, l⟩ := g
  have hslot := Calltable.slot_modify_of_used (h.unusedZero.used_of_hasFlow hf)
    (CalltableElement.setSsrc j ssrc) k
  simp only [Calltable.flowSsrc, record, setCache, CachedCalltable.modify, hslot, Prod.mk.injEq]
  by_cases hk : k = i
  · subst hk
    by_cases hl : l = j <;> simp [CalltableElement.setSsrc, hl]
  · simp [hk]

/-- Flows with different pairs are different. -/
lemma ne_of_pair_ne {ct : Calltable} (hf : ct.HasFlow addr port f) {ap : AddrPort}
    (hap : ap ≠ ⟨addr, port⟩) {g : Flow} (hg : ct.HasFlow ap.addr ap.port g) : g ≠ f := by
  rintro rfl
  obtain ⟨ha, hp⟩ := hf.pair_eq hg
  exact hap (by cases ap; simp_all)

lemma Indexed.record (h : K.Indexed) (hf : K.HasFlow addr port f) (ssrc : UInt32) :
    (K.record ⟨addr, port⟩ f ssrc).Indexed := by
  have hu := h.unusedZero.used_of_hasFlow hf
  have hslot := Calltable.slot_modify_of_used hu (CalltableElement.setSsrc f.2 ssrc)
  refine ⟨h.unusedZero.modify hu fun _ => rfl, fun l => ?_, fun l j hj => ?_,
    fun ap g c hc => ?_, fun addr' port' g hg => ?_⟩
  · simp only [CachedCalltable.record, setCache, CachedCalltable.modify, hslot]
    split
    · exact ⟨(h.distinct l).ipN_le, (h.distinct l).inj⟩
    · exact h.distinct l
  · simp only [CachedCalltable.record, setCache, CachedCalltable.modify, hslot] at hj ⊢
    by_cases hl : l = f.1
    · subst hl
      simp only [if_true] at hj ⊢
      have hne : j ≠ f.2 := by
        rintro rfl
        exact absurd hf.1 (Nat.not_lt.mpr hj)
      simp only [CalltableElement.setSsrc, Function.update_of_ne hne]
      exact h.ssrcZero f.1 j hj
    · rw [if_neg hl] at hj ⊢
      exact h.ssrcZero l j hj
  · rw [hasFlow_record h hf, flowSsrc_record h hf]
    by_cases hap : ap = ⟨addr, port⟩
    · subst hap
      simp only [CachedCalltable.record, setCache, Function.update_self, Option.some.injEq,
        Prod.mk.injEq] at hc
      obtain ⟨rfl, rfl⟩ := hc
      exact ⟨hf, if_pos rfl⟩
    · simp only [CachedCalltable.record, setCache, Function.update_of_ne hap] at hc
      obtain ⟨hg, hrec⟩ := h.positive ap g c hc
      refine ⟨hg, ?_⟩
      rw [if_neg (ne_of_pair_ne hf hap hg)]
      exact hrec
  · by_cases hap : (⟨addr', port'⟩ : AddrPort) = ⟨addr, port⟩
    · simp [CachedCalltable.record, setCache, hap]
    · simp only [CachedCalltable.record, setCache, Function.update_of_ne hap]
      exact h.covered addr' port' g ((hasFlow_record h hf).mp hg)

lemma Indexed.setNegative (h : K.Indexed) (ap : AddrPort) : (K.setCache ap none).Indexed := by
  refine ⟨h.unusedZero, h.distinct, h.ssrcZero, fun ap' g c hc => ?_,
    fun addr' port' g hg => ?_⟩
  · by_cases hap : ap' = ap
    · subst hap
      simp [setCache] at hc
    · simp only [setCache, Function.update_of_ne hap] at hc
      exact h.positive ap' g c hc
  · by_cases hap : (⟨addr', port'⟩ : AddrPort) = ap
    · simp [setCache, hap]
    · simp only [setCache, Function.update_of_ne hap]
      exact h.covered addr' port' g hg

lemma Indexed.findIpPortSsrc (h : K.Indexed) (addr : UInt32) (port : UInt16) (ssrc : UInt32) :
    (K.findIpPortSsrc addr port ssrc).2.Indexed := by
  rcases K.findIpPortSsrc_cases addr port ssrc with
    ⟨he, -⟩ | ⟨f, c, hc, -, he⟩ | ⟨-, ⟨f, hf, he⟩ | ⟨-, he⟩⟩
  · rw [he]
    exact h
  · rw [he]
    exact h.record (h.positive _ f c hc).1 ssrc
  · rw [he]
    exact h.record (Calltable.findFlow_eq_some_iff.mp hf).1 ssrc
  · rw [he]
    exact h.setNegative _

/-- Recording an SSRC for a flow of the pair leaves the entries of other pairs as right as they
were. -/
lemma Indexed.entryOk_record_of_ne (h : K.Indexed) (hf : K.HasFlow addr port f) (ssrc : UInt32)
    {ap : AddrPort} (hap : ap ≠ ⟨addr, port⟩) :
    (K.record ⟨addr, port⟩ f ssrc).EntryOk ap ↔ K.EntryOk ap := by
  refine h.entryOk_congr ?_ (fun g => hasFlow_record h hf) fun g hg => ?_
  · simp only [CachedCalltable.record, setCache, CachedCalltable.modify,
      Function.update_of_ne hap]
  · exact ⟨flowBye_record h hf g,
      (flowSsrc_record h hf g).trans (if_neg (ne_of_pair_ne hf hap hg))⟩

/-- The entry for a pair after a lookup has recorded a flow. -/
lemma Indexed.entryOk_record (h : K.Indexed) (hf : K.HasFlow addr port f) (ssrc : UInt32) :
    (K.record ⟨addr, port⟩ f ssrc).EntryOk ⟨addr, port⟩ ↔
      ∀ g, K.HasFlow addr port g → g.Before f →
        K.flowBye f ∧ K.flowBye g ∧ K.flowSsrc g ≠ ssrc := by
  have hentry : (K.record ⟨addr, port⟩ f ssrc).cache ⟨addr, port⟩ = some (some (f, ssrc)) := by
    simp only [CachedCalltable.record, setCache, Function.update_self]
  unfold EntryOk
  rw [hentry]
  simp only [hasFlow_record h hf, flowBye_record h hf, flowSsrc_record h hf]
  refine forall_congr' fun g => forall_congr' fun _ => forall_congr' fun hgf => ?_
  have hne : g ≠ f := by
    rintro rfl
    exact Flow.Before.asymm _ _ hgf hgf
  rw [if_neg hne]

/-- While the first call is not over, every packet may come. -/
lemma lookupOk_of_first {ct : Calltable} (hf : ct.HasFlow addr port f)
    (hfirst : ∀ g, ct.HasFlow addr port g → ¬g.Before f) (hbye : ct.flowBye f = false) :
    LookupOk ct addr port ssrc := by
  intro f₀ hf₀ hfirst₀ hbye₀
  rcases Calltable.eq_or_after_first hfirst₀ hf with rfl | hlt
  · exact absurd (hbye.symm.trans hbye₀) (by decide)
  · exact absurd hlt (hfirst f₀ hf₀)

/-- An entry that is right and has this SSRC: the packet may come. -/
lemma Indexed.lookupOk_of_entry (h : K.Indexed) (hok : K.EntryOk ⟨addr, port⟩)
    (hc : K.cache ⟨addr, port⟩ = some (some (f, ssrc))) :
    LookupOk K.toCalltable addr port ssrc := by
  obtain ⟨hf, hrec⟩ := h.positive _ f ssrc hc
  rw [EntryOk, hc] at hok
  intro f₀ hf₀ hfirst₀ hbye₀
  have hbye : K.flowBye f := by
    rcases Calltable.eq_or_after_first hfirst₀ hf with rfl | hlt
    · exact hbye₀
    · exact (hok f₀ hf₀ hlt).1
  exact ⟨f, hf, hbye, hrec, fun g hg hgf => (hok g hg hgf).2.1⟩

/-- The search has found a flow: the packet may come exactly when the flows before it leave the
packets of the new entry to it. -/
lemma lookupOk_of_found {ct : Calltable} (hfound : ct.findFlow addr port ssrc = some f) :
    LookupOk ct addr port ssrc ↔ ∀ g, ct.HasFlow addr port g → g.Before f →
      ct.flowBye f ∧ ct.flowBye g ∧ ct.flowSsrc g ≠ ssrc := by
  obtain ⟨hf, htakes, hbefore⟩ := Calltable.findFlow_eq_some_iff.mp hfound
  have hpassed : ∀ g, ct.HasFlow addr port g → g.Before f →
      ct.flowBye g = true ∧ ct.flowSsrc g ≠ ssrc := fun g hg hgf =>
    Calltable.flowTakes_eq_false_iff.mp (hbefore g hg hgf)
  constructor
  · intro hlookup g hg hgf
    refine ⟨?_, hpassed g hg hgf⟩
    obtain ⟨f₀, hf₀, hfirst₀⟩ := Calltable.exists_first_hasFlow hf
    -- the first flow is before the one found, so its call is over
    have hlt : f₀.Before f := by
      rcases Calltable.eq_or_after_first hfirst₀ hf with rfl | hlt
      · exact absurd hgf (hfirst₀ g hg)
      · exact hlt
    obtain ⟨f', hf', hbye', hssrc', hbefore'⟩ := hlookup f₀ hf₀ hfirst₀ (hpassed f₀ hf₀ hlt).1
    rcases Flow.before_or_eq_or_after f f' with hlt' | rfl | hlt'
    · exact hbefore' f hf hlt'
    · exact hbye'
    · exact absurd hssrc' (hpassed f' hf' hlt').2
  · intro hall f₀ hf₀ hfirst₀ hbye₀
    have hbye : ct.flowBye f := by
      rcases Calltable.eq_or_after_first hfirst₀ hf with rfl | hlt
      · exact hbye₀
      · exact (hall f₀ hf₀ hlt).1
    have hssrc : ct.flowSsrc f = ssrc := by
      rcases Calltable.flowTakes_iff.mp htakes with hnot | heq
      · exact absurd (hnot.symm.trans hbye) (by decide)
      · exact heq
    exact ⟨f, hf, hbye, hssrc, fun g hg hgf => (hpassed g hg hgf).1⟩

/-- The search has found nothing: the packet may come exactly when no flow has the pair. -/
lemma lookupOk_of_notFound {ct : Calltable} (hnot : ct.findFlow addr port ssrc = none) :
    LookupOk ct addr port ssrc ↔ ∀ f, ¬ct.HasFlow addr port f := by
  have hpassed : ∀ g, ct.HasFlow addr port g → ct.flowBye g = true ∧ ct.flowSsrc g ≠ ssrc :=
    fun g hg => Calltable.flowTakes_eq_false_iff.mp (Calltable.findFlow_eq_none_iff.mp hnot g hg)
  constructor
  · intro hlookup f hf
    obtain ⟨f₀, hf₀, hfirst₀⟩ := Calltable.exists_first_hasFlow hf
    obtain ⟨f', hf', -, hssrc', -⟩ := hlookup f₀ hf₀ hfirst₀ (hpassed f₀ hf₀).1
    exact (hpassed f' hf').2 hssrc'
  · exact fun hno f₀ hf₀ => absurd hf₀ (hno f₀)

/-- After a lookup all entries are right exactly when its packet may come. -/
lemma Indexed.entryOk_findIpPortSsrc (h : K.Indexed) (hok : ∀ ap, K.EntryOk ap) (addr : UInt32)
    (port : UInt16) (ssrc : UInt32) :
    (∀ ap, (K.findIpPortSsrc addr port ssrc).2.EntryOk ap) ↔
      LookupOk K.toCalltable addr port ssrc := by
  have hrecord : ∀ {f}, K.HasFlow addr port f →
      ((∀ ap, (K.record ⟨addr, port⟩ f ssrc).EntryOk ap) ↔
        ∀ g, K.HasFlow addr port g → g.Before f →
          K.flowBye f ∧ K.flowBye g ∧ K.flowSsrc g ≠ ssrc) := by
    intro f hf
    refine ⟨fun hall => (h.entryOk_record hf ssrc).mp (hall _), fun hbefore ap => ?_⟩
    by_cases hap : ap = ⟨addr, port⟩
    · rw [hap]
      exact (h.entryOk_record hf ssrc).mpr hbefore
    · exact (h.entryOk_record_of_ne hf ssrc hap).mpr (hok ap)
  rcases K.findIpPortSsrc_cases addr port ssrc with
    ⟨he, hc⟩ | ⟨f, c, hc, hbye, he⟩ | ⟨hc, ⟨f, hfound, he⟩ | ⟨hnot, he⟩⟩
  · -- the entry answers
    rw [he]
    refine iff_of_true hok ?_
    rcases hc with hc | ⟨f, hc⟩
    · have hno := hok ⟨addr, port⟩
      rw [EntryOk, hc] at hno
      exact fun f₀ hf₀ => absurd hf₀ (hno f₀)
    · exact h.lookupOk_of_entry (hok _) hc
  · -- the call of the entry is not over, so its flow is the first one
    have hf := (h.positive _ f c hc).1
    have hentry := hok ⟨addr, port⟩
    rw [EntryOk, hc] at hentry
    have hfirst : ∀ g, K.HasFlow addr port g → ¬g.Before f := by
      intro g hg hgf
      exact absurd (hbye.symm.trans (hentry g hg hgf).1) (by decide)
    rw [he, hrecord hf]
    exact iff_of_true (fun g hg hgf => absurd hgf (hfirst g hg)) (lookupOk_of_first hf hfirst hbye)
  · rw [he, hrecord (Calltable.findFlow_eq_some_iff.mp hfound).1, lookupOk_of_found hfound]
  · rw [he, lookupOk_of_notFound hnot]
    rcases hc with hc | ⟨f, c, hc⟩
    · -- a pair without an entry has no flow
      have hno : ∀ f, ¬K.HasFlow addr port f := fun f hf => h.covered addr port f hf hc
      refine iff_of_true (fun ap => ?_) hno
      by_cases hap : ap = ⟨addr, port⟩
      · subst hap
        simpa only [EntryOk, setCache, Function.update_self] using hno
      · have hother : (K.setCache ⟨addr, port⟩ none).EntryOk ap ↔ K.EntryOk ap := by
          refine h.entryOk_congr ?_ (fun _ => Iff.rfl) fun _ _ => ⟨rfl, rfl⟩
          simp only [setCache, Function.update_of_ne hap]
        exact hother.mpr (hok ap)
    · -- the negative entry is wrong: the flow of the entry that was dropped has the pair
      refine iff_of_false (fun hall => ?_) fun hno => hno f (h.positive _ f c hc).1
      have hno := hall ⟨addr, port⟩
      simp only [EntryOk, setCache, Function.update_self] at hno
      exact hno f (h.positive _ f c hc).1

/-! ### Both builds -/

/-- The builds agree when the tables are the same and all entries are right. -/
lemma Indexed.flowsAgree_iff (h : K.Indexed) {ct : Calltable} :
    FlowsAgree (ct, K) ↔ K.toCalltable = ct ∧ ∀ ap, K.EntryOk ap := by
  refine and_congr_right fun hct => ?_
  obtain rfl : K.toCalltable = ct := hct
  constructor
  · intro hall ap
    exact (h.agrees_iff ap.addr ap.port).mp fun ssrc => hall ap.addr ap.port ssrc
  · intro hok addr port
    exact (h.agrees_iff addr port).mpr (hok ⟨addr, port⟩)

/-- The registration that `add_ip_port` makes or refuses, in both builds. -/
lemma toCalltable_addIpPort (K : CachedCalltable) (i : ℕ) (addr : UInt32) (port : UInt16) :
    (K.addIpPort i addr port).toCalltable = K.toCalltable.addIpPort i addr port := by
  rw [addIpPort, Calltable.addIpPort]
  by_cases hlt : (K.slot i).ipN < maxIpPerCall
  · by_cases ht : (K.slot i).tracks addr port
    · rw [dif_pos hlt, if_pos ht]
      refine (Calltable.modify_eq_self ?_).symm
      rw [CalltableElement.addIpPort, dif_pos hlt, if_pos ht]
    · rw [dif_pos hlt, if_neg ht]
      rfl
  · rw [dif_neg hlt]
    refine (Calltable.modify_eq_self ?_).symm
    rw [CalltableElement.addIpPort, dif_neg hlt]

/-- A step of both builds keeps the flow cache as it should be. -/
lemma Indexed.next (h : K.Indexed) {ct : Calltable} (hct : K.toCalltable = ct) {op : TableOp}
    (hop : flowBuilds.allowed (ct, K) op) : (cached.next K op).Indexed := by
  subst hct
  cases op with
  | find callId => exact h
  | add callId caller callee time => exact h.add callId caller callee time
  | cleanup currtime => exact hop.1.elim
  | findIpPortSsrc addr port ssrc => exact h.findIpPortSsrc addr port ssrc
  | write i w =>
    have hu : (K.slot i).isUsed := hop.2 i w rfl
    cases w with
    | bye => exact h.bye hu
    | addIpPort addr port =>
      show (K.addIpPort i addr port).Indexed
      by_cases hnew : (K.slot i).ipN < maxIpPerCall ∧ (K.slot i).tracks addr port = false
      · exact h.addIpPort hu hnew.1 hnew.2
      · rw [addIpPort_refused fun hlt => by simpa [hlt] using hnew]
        exact h
    | _ => exact hop.1.elim

/-- A step of both builds keeps the entries right exactly when it meets the condition. -/
lemma Indexed.entryOk_next (h : K.Indexed) (hok : ∀ ap, K.EntryOk ap) {op : TableOp}
    (hop : flowBuilds.allowed (K.toCalltable, K) op) :
    (∀ ap, (cached.next K op).EntryOk ap) ↔ FlowCondition (K.toCalltable, K) op := by
  cases op with
  | find callId => exact iff_of_true hok trivial
  | add callId caller callee time =>
    exact iff_of_true (fun ap => (h.entryOk_add callId caller callee time ap).mpr (hok ap)) trivial
  | cleanup currtime => exact hop.1.elim
  | findIpPortSsrc addr port ssrc => exact h.entryOk_findIpPortSsrc hok addr port ssrc
  | write i w =>
    have hu : (K.slot i).isUsed := hop.2 i w rfl
    cases w with
    | bye => exact iff_of_true (fun ap => entryOk_bye hu (hok ap)) trivial
    | addIpPort addr port =>
      show (∀ ap, (K.addIpPort i addr port).EntryOk ap) ↔ RegistrationOk K.toCalltable i addr port
      by_cases hnew : (K.slot i).ipN < maxIpPerCall ∧ (K.slot i).tracks addr port = false
      · rw [h.entryOk_addIpPort hok hu hnew.1 hnew.2]
        exact ⟨fun hcond _ _ => hcond, fun hcond => hcond hnew.1 hnew.2⟩
      · rw [addIpPort_refused fun hlt => by simpa [hlt] using hnew]
        exact iff_of_true hok fun hlt ht => absurd ⟨hlt, ht⟩ hnew
    | _ => exact hop.1.elim

/-- The vectors of the builds stay the same in a step of builds that agree. -/
lemma toCalltable_next (hagree : FlowsAgree (K.toCalltable, K)) {op : TableOp}
    (hop : flowBuilds.allowed (K.toCalltable, K) op) :
    (cached.next K op).toCalltable = Calltable.plain.next K.toCalltable op := by
  cases op with
  | find callId => rfl
  | add callId caller callee time => rfl
  | cleanup currtime => exact hop.1.elim
  | findIpPortSsrc addr port ssrc => exact (hagree.2 addr port ssrc).2
  | write i w =>
    cases w with
    | bye => rfl
    | addIpPort addr port => exact K.toCalltable_addIpPort i addr port
    | _ => exact hop.1.elim

lemma indexed_create (eraseNonT38 : Bool) (optAbsoluteTimeout : ℤ) :
    (create eraseNonT38 optAbsoluteTimeout).Indexed where
  unusedZero := (Calltable.tableInv_create eraseNonT38 optAbsoluteTimeout).unusedZero
  distinct := (Calltable.tableInv_create eraseNonT38 optAbsoluteTimeout).flowsDistinct
  ssrcZero i j _ := by
    rw [create, Calltable.slot_create]
    rfl
  positive ap f ssrc hc := by simp [create] at hc
  covered addr port f hf := by
    have hlt := hf.1
    rw [create, Calltable.slot_create] at hlt
    exact absurd hlt (Nat.not_lt_zero _)

/-- **When the flow cache agrees with the search.**  On a history from the empty table without
passes the two builds have the same table in every state, and answer every lookup alike there
and leave the same table, exactly when every registration and every lookup of the history meets
the condition. -/
theorem flowCache_agrees_iff (eraseNonT38 : Bool) (optAbsoluteTimeout : ℤ) (ops : List TableOp)
    (hleg : flowBuilds.Legal
      (Calltable.create eraseNonT38 optAbsoluteTimeout, create eraseNonT38 optAbsoluteTimeout)
      ops) :
    flowBuilds.Always FlowsAgree
        (Calltable.create eraseNonT38 optAbsoluteTimeout, create eraseNonT38 optAbsoluteTimeout)
        ops ↔
      flowBuilds.Along FlowCondition
        (Calltable.create eraseNonT38 optAbsoluteTimeout, create eraseNonT38 optAbsoluteTimeout)
        ops := by
  have hstart := indexed_create eraseNonT38 optAbsoluteTimeout
  have hagree : FlowsAgree
      (Calltable.create eraseNonT38 optAbsoluteTimeout, create eraseNonT38 optAbsoluteTimeout) :=
    hstart.flowsAgree_iff.mpr ⟨rfl, fun ap => trivial⟩
  refine Machine.always_iff_along (I := fun s => s.2.Indexed)
    (fun s op hop h hP _ => h.next hP.1 hop) (fun s op hop h hP => ?_) hleg hstart hagree
  obtain ⟨ct, K⟩ := s
  obtain rfl : K.toCalltable = ct := hP.1
  have hnext : (cached.next K op).Indexed := h.next rfl hop
  have hok := (h.flowsAgree_iff.mp hP).2
  refine (hnext.flowsAgree_iff).trans ?_
  rw [← h.entryOk_next hok hop]
  exact and_iff_right (toCalltable_next hP hop)

/-- Two calls with pairs of their own, one of them over. -/
theorem flowCache_agrees_twoCalls :
    flowBuilds.Always FlowsAgree (Calltable.create false 3600, create false 3600)
      [.add (ascii "a") [] [] 1000, .write 0 (.addIpPort 1 2), .findIpPortSsrc 1 2 7,
        .add (ascii "b") [] [] 1001, .write 1 (.addIpPort 1 4), .write 0 .bye,
        .findIpPortSsrc 1 2 7, .findIpPortSsrc 1 4 9, .findIpPortSsrc 1 4 8] :=
  (flowCache_agrees_iff false 3600 _ (by decide +kernel)).mpr (by decide +kernel)

/-- Two calls register one pair: the search finds the flow of the first call, the cache that of
the second.  And after a foreign SSRC has come for a call that is over, the search still finds
the call under its own SSRC, while the cache finds nothing any more. -/
theorem flowCache_disagrees :
    (let ops : List TableOp := [.add (ascii "a") [] [] 1000, .write 0 (.addIpPort 1 2),
        .add (ascii "b") [] [] 1001, .write 1 (.addIpPort 1 2)]
      let s := flowBuilds.run (Calltable.create false 3600, create false 3600) ops
      flowBuilds.Legal (Calltable.create false 3600, create false 3600) ops ∧
        (s.1.findIpPortSsrc 1 2 7).1 = some (0, 0) ∧
        (s.2.findIpPortSsrc 1 2 7).1 = some (1, 0)) ∧
    (let ops : List TableOp := [.add (ascii "a") [] [] 1000, .write 0 (.addIpPort 1 2),
        .findIpPortSsrc 1 2 7, .write 0 .bye, .findIpPortSsrc 1 2 9]
      let s := flowBuilds.run (Calltable.create false 3600, create false 3600) ops
      flowBuilds.Legal (Calltable.create false 3600, create false 3600) ops ∧
        (s.1.findIpPortSsrc 1 2 7).1 = some (0, 0) ∧
        (s.2.findIpPortSsrc 1 2 7).1 = none) := by
  decide +kernel

end CachedCalltable

end PcapSipDump
