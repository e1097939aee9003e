import PcapSipDump.CallTable.FlowSearch
import PcapSipDump.Capture.Branch

/-!
# Finished calls

A BYE leaves the call in its element until a pass frees it.  From then on the search gives a flow
of the call only to packets with the SSRC that the flow has, so the SSRCs of the call stay as they
are, and a packet with another SSRC is not counted for it (`finished_call_frozen`).
-/

namespace PcapSipDump

open Lib Lib.CString

variable {o : Options} {host : Host} {p : Packet} {s : State}

/-- The packet was found to belong to the flow, with this SSRC. -/
def Carries (o : Options) (f : Flow) (ssrc : UInt32) (s : State) : Input → Prop
  | .packet p => ∃ ip, branch o p (afterPass s (.packet p)).world = .rtp ip f ∧
      packetSsrc o p.mem ip = ssrc
  | .cleanup _ => False

/-- The element with index `i` has seen a BYE and has these SSRCs. -/
structure Finished (i : ℕ) (ssrc : Fin maxIpPerCall → UInt32) (w : World) : Prop where
  hadBye : (w.slot i).hadBye
  ssrc_eq : (w.slot i).ssrc = ssrc

/-- What packets change in an element only when they are counted for it. -/
def CalltableElement.counters (c : CalltableElement) : UInt64 × ℤ := (c.packets, c.lastPacketTime)

/-! ### Writes to an element -/

lemma ElementWrite.ssrc_apply (e : ElementWrite) (c : CalltableElement) :
    (e.apply c).ssrc = c.ssrc := by
  cases e with
  | addIpPort addr port =>
    exact c.addIpPort_frame (fun c => c.ssrc) (fun _ _ _ _ => rfl) addr port
  | _ => rfl

/-- No write takes a BYE back. -/
lemma ElementWrite.hadBye_apply (e : ElementWrite) {c : CalltableElement} (h : c.hadBye) :
    (e.apply c).hadBye := by
  cases e with
  | bye => rfl
  | addIpPort addr port =>
    exact (c.addIpPort_frame (fun c => c.hadBye) (fun _ _ _ _ => rfl) addr port).trans h
  | _ => exact h

/-- The assignments of the SIP branch do not count packets. -/
lemma ElementWrite.IsSip.counters_apply {e : ElementWrite} (h : e.IsSip) (c : CalltableElement) :
    (e.apply c).counters = c.counters := by
  cases e with
  | addIpPort addr port =>
    exact c.addIpPort_frame (fun c => c.counters) (fun _ _ _ _ => rfl) addr port
  | rtp ts =>
    rcases h with h | h
    · cases h
    · exact h.elim
  | _ => rfl

lemma ssrc_foldl_apply (es : List ElementWrite) (c : CalltableElement) :
    (es.foldl (fun c e => e.apply c) c).ssrc = c.ssrc :=
  foldl_apply_invariant (P := fun c' => c'.ssrc = c.ssrc)
    (fun e _ c' hc => (e.ssrc_apply c').trans hc) rfl

lemma hadBye_foldl_apply (es : List ElementWrite) {c : CalltableElement} (h : c.hadBye) :
    (es.foldl (fun c e => e.apply c) c).hadBye :=
  foldl_apply_invariant (P := fun c' => c'.hadBye) (fun e _ _ hc => e.hadBye_apply hc) h

/-! ### What a packet does to a finished call -/

/-- **The search gives a flow of a finished call to its own SSRC only.** -/
lemma Finished.ssrc_of_findFlow {i : ℕ} {ssrc : Fin maxIpPerCall → UInt32} {w : World}
    (h : Finished i ssrc w) {addr : UInt32} {port : UInt16} {x : UInt32} {j : Fin maxIpPerCall}
    (hfound : w.ct.findFlow addr port x = some (i, j)) : x = ssrc j := by
  obtain ⟨-, htakes, -⟩ := Calltable.findFlow_eq_some_iff.mp hfound
  rcases Calltable.flowTakes_iff.mp htakes with hbye | hssrc
  · exact absurd (hbye.symm.trans h.hadBye) (by decide)
  · rw [← h.ssrc_eq]
    exact hssrc.symm

/-- The same for the two lookups of a packet. -/
lemma Finished.ssrc_of_branch {i : ℕ} {ssrc : Fin maxIpPerCall → UInt32} {w : World}
    (h : Finished i ssrc w) {ip : ℕ} {j : Fin maxIpPerCall} (hb : branch o p w = .rtp ip (i, j)) :
    packetSsrc o p.mem ip = ssrc j := by
  obtain ⟨-, -, -, hfound⟩ := of_branch_rtp hb
  rcases rtpLookup_cases o p.mem ip w with he | ⟨f, addr, port, -, hflow, he⟩
  · rw [he] at hfound
    exact absurd hfound (by simp)
  · rw [he] at hfound
    obtain rfl : f = (i, j) := Option.some.inj hfound
    exact h.ssrc_of_findFlow hflow

/-- **A packet leaves a finished call as it is**, and counts for it only with the SSRC of the flow
that it was found for. -/
lemma Finished.dispatch {i : ℕ} {ssrc : Fin maxIpPerCall → UInt32}
    (h : Finished i ssrc s.world) (o : Options) (host : Host) (p : Packet)
    (hw : s.world.ct.TableInv) :
    Finished i ssrc (PcapSipDump.dispatch o host p s).world ∧
      ((∃ ip j, branch o p s.world = .rtp ip (i, j) ∧ packetSsrc o p.mem ip = ssrc j) ∨
        ((PcapSipDump.dispatch o host p s).world.slot i).counters =
            (s.world.slot i).counters ∧
          ∀ f r, (.rtp i, f, r) ∉ (branch o p s.world).dumps o host p s) := by
  rcases slot_dispatch o host p hw i with
    ⟨es, hes, he⟩ | ⟨ip, j, es, hb, hes, he⟩ | ⟨_, _, _, _, _, _, -, -, -, hidx, -, -, -, -⟩
  · refine ⟨⟨?_, ?_⟩, ?_⟩
    · rw [he]
      exact hadBye_foldl_apply es h.hadBye
    · rw [he, ssrc_foldl_apply, h.ssrc_eq]
    · by_cases hrtp : ∃ ip j, branch o p s.world = .rtp ip (i, j)
      · obtain ⟨ip, j, hb⟩ := hrtp
        exact Or.inl ⟨ip, j, hb, h.ssrc_of_branch hb⟩
      · refine Or.inr ⟨?_, fun f r hmem => hrtp (branch_of_dumps_rtp hmem)⟩
        rw [he]
        exact foldl_apply_invariant (P := fun c => c.counters = (s.world.slot i).counters)
          (fun e hmem c hc => ((hes e hmem).counters_apply c).trans hc) rfl
  · have hssrc := h.ssrc_of_branch hb
    refine ⟨⟨?_, ?_⟩, Or.inl ⟨ip, j, hb, hssrc⟩⟩
    · rw [he]
      exact hadBye_foldl_apply es h.hadBye
    · -- the SSRC that is recorded is the one that is there
      rw [he, ssrc_foldl_apply, CalltableElement.setSsrc, hssrc, ← h.ssrc_eq]
      exact Function.update_eq_self _ _
  · have hzero : s.world.slot i = CalltableElement.zero := by
      rw [hidx]
      exact hw.unusedZero _ s.world.ct.isUsed_addIdx
    have hbye := h.hadBye
    rw [hzero] at hbye
    exact absurd hbye (by decide)

/-- Where the SSRC of a flow comes from: it is zero, or the packet has just brought it, or it was
there and the element has not been freed. -/
lemma ssrc_loop {a : Input} (hw : (afterPass s a).world.ct.TableInv) {i : ℕ}
    {j : Fin maxIpPerCall} {x : UInt32} (hx : x ≠ 0)
    (h : (((loop o host).next s a).world.slot i).ssrc j = x) :
    Carries o (i, j) x s a ∨ ¬Frees i s a ∧ (s.world.slot i).ssrc j = x := by
  have hpass : ((afterPass s a).world.slot i).ssrc j = x →
      ¬Frees i s a ∧ (s.world.slot i).ssrc j = x := by
    intro hssrc
    rcases slot_afterPass s a i with ⟨hno, he⟩ | ⟨-, he⟩
    · exact ⟨hno, by rw [← he, hssrc]⟩
    · rw [he] at hssrc
      exact absurd hssrc.symm hx
  cases a with
  | cleanup currtime => exact Or.inr (hpass h)
  | packet p =>
    have hnext : (loop o host).next s (.packet p) =
        PcapSipDump.dispatch o host p (afterPass s (.packet p)) := rfl
    rw [hnext] at h
    rcases slot_dispatch o host p hw i with
      ⟨es, -, he⟩ | ⟨ip, k, es, hb, -, he⟩ | ⟨_, _, _, _, _, es, -, -, -, -, -, -, -, he⟩
    · rw [he, ssrc_foldl_apply] at h
      exact Or.inr (hpass h)
    · rw [he, ssrc_foldl_apply, CalltableElement.setSsrc] at h
      by_cases hjk : j = k
      · subst hjk
        simp only [Function.update_self] at h
        exact Or.inl ⟨ip, hb, h⟩
      · simp only [Function.update_of_ne hjk] at h
        exact Or.inr (hpass h)
    · rw [he, ssrc_foldl_apply, ElementWrite.ssrc_apply] at h
      exact Or.inr (hpass h)

/-- An input whose pass does not free a finished call leaves it as it is. -/
lemma Finished.loop {i : ℕ} {ssrc : Fin maxIpPerCall → UInt32} {a : Input}
    (h : Finished i ssrc s.world) (o : Options) (host : Host)
    (hw : (afterPass s a).world.ct.TableInv)
    (hkept : ¬Frees i s a) :
    Finished i ssrc (afterPass s a).world ∧
      Finished i ssrc ((PcapSipDump.loop o host).next s a).world := by
  have hpass : Finished i ssrc (afterPass s a).world := by
    rcases slot_afterPass s a i with ⟨-, he⟩ | ⟨hfrees, -⟩
    · exact ⟨by rw [he, h.hadBye], by rw [he, h.ssrc_eq]⟩
    · exact absurd hfrees hkept
  refine ⟨hpass, ?_⟩
  cases a with
  | packet p => exact (hpass.dispatch o host p hw).1
  | cleanup currtime => exact hpass

/-! ### Runs -/

/-- **The SSRCs of a finished call are frozen.**  From the BYE of a call until a pass frees its
element, the SSRCs of the element do not change; each of them is zero or was brought by a packet
of the flow since the element was freed last; every search that returns a flow of the call was
made with the SSRC of this flow; and every packet but those with this SSRC is neither counted for
the call nor dumped for it, and does not keep it alive. -/
theorem finished_call_frozen (o : Options) (host : Host) (pre rest : List Input) (i : ℕ)
    (hbye : (((loop o host).run o.start pre).world.slot i).hadBye)
    (hkept : (loop o host).Along (fun s a => ¬Frees i s a) ((loop o host).run o.start pre) rest) :
    let s := (loop o host).run o.start pre
    let t := (loop o host).run s rest
    (t.world.slot i).hadBye ∧ (t.world.slot i).ssrc = (s.world.slot i).ssrc ∧
      (∀ j, (s.world.slot i).ssrc j ≠ 0 →
        (loop o host).Since (Carries o (i, j) ((s.world.slot i).ssrc j)) (Frees i) o.start pre) ∧
      ∀ p, ¬Frees i t (.packet p) →
        let w := (afterPass t (.packet p)).world
        let t' := (loop o host).next t (.packet p)
        (∀ addr port x j, w.ct.findFlow addr port x = some (i, j) →
          x = (s.world.slot i).ssrc j) ∧
        ((∃ ip j, branch o p w = .rtp ip (i, j) ∧
            packetSsrc o p.mem ip = (s.world.slot i).ssrc j) ∨
          (t'.world.slot i).packets = (t.world.slot i).packets ∧
            (t'.world.slot i).lastPacketTime = (t.world.slot i).lastPacketTime ∧
            ∀ new, t'.world.written = t.world.written ++ new → ∀ f r, (.rtp i, f, r) ∉ new) := by
  intro s t
  have hs : Owns s.world := owns_run o host pre
  have ht : Owns t.world ∧ Finished i (s.world.slot i).ssrc t.world := by
    refine Machine.run_of_along (P := fun u : State => Owns u.world ∧
      Finished i (s.world.slot i).ssrc u.world) ?_ hkept ⟨hs, hbye, rfl⟩
    rintro u a hno ⟨howns, hfin⟩
    exact ⟨howns.loop a, (hfin.loop o host (howns.afterPass a).tableInv hno).2⟩
  refine ⟨ht.2.hadBye, ht.2.ssrc_eq, fun j hj => ?_, fun p hno => ?_⟩
  · have hsince := Machine.since_of_run (M := loop o host) (I := fun u : State => Owns u.world)
      (P := fun u : State => (u.world.slot i).ssrc j = (s.world.slot i).ssrc j)
      (W := Carries o (i, j) ((s.world.slot i).ssrc j)) (T := Frees i)
      (fun u a howns => howns.loop a)
      (fun u a howns h => ssrc_loop (howns.afterPass a).tableInv hj h) (owns_start o)
      (show (s.world.slot i).ssrc j = _ from rfl)
    refine hsince.resolve_right ?_
    rintro ⟨-, hstart⟩
    have hzero : o.start.world.slot i = CalltableElement.zero := Calltable.slot_create _ _ i
    rw [hzero] at hstart
    exact hj hstart.symm
  · have hw := (ht.1.afterPass (.packet p)).tableInv
    have hpass := (ht.2.loop o host hw hno).1
    refine ⟨fun addr port x j hfound => hpass.ssrc_of_findFlow hfound, ?_⟩
    rcases (hpass.dispatch o host p hw).2 with hcarried | ⟨hcount, hnot⟩
    · exact Or.inl hcarried
    · have hslot : (afterPass t (.packet p)).world.slot i = t.world.slot i := by
        rcases slot_afterPass t (.packet p) i with ⟨-, he⟩ | ⟨hfrees, -⟩
        · exact he
        · exact absurd hfrees hno
      rw [hslot] at hcount
      obtain ⟨hpackets, htime⟩ := Prod.mk.inj hcount
      refine Or.inr ⟨hpackets, htime, fun new hnew f r hmem => hnot f r ?_⟩
      rwa [List.append_cancel_left (hnew.symm.trans (written_loop o host hw))] at hmem

/-- A call with media of the SSRC 5 and a BYE: media of another SSRC is not counted for it. -/
theorem finished_call_frozen_reuse :
    let pre : List Input := [.packet (.captured 1000 (invite "x")),
      .packet (.captured 1001 (media 4000 5)),
      .packet (.captured 1002 (ipv4Udp 3 0 [10, 0, 0, 1] [10, 0, 0, 2] 5060 5060
        (sipRequest "BYE" "x" [])))]
    let s := (loop Options.raw Host.numbering).run Options.raw.start pre
    let p : Packet := .captured 1003 (media 4000 7)
    let s' := (loop Options.raw Host.numbering).next s (.packet p)
    (s.world.slot 0).ssrc 0 = 5 ∧ (s'.world.slot 0).packets = (s.world.slot 0).packets := by
  intro pre s p s'
  have hssrc : (s.world.slot 0).ssrc 0 = 5 := by decide +kernel
  have hnone : passTime s (.packet p) = none := by decide +kernel
  have hkept : ¬Frees 0 s (.packet p) := by
    rintro ⟨T, hT, -⟩
    exact absurd (hnone.symm.trans hT) (by simp)
  have hskip : (rtpLookup Options.raw p.mem 0 (afterPass s (.packet p)).world).1 = none := by
    decide +kernel
  have hip0 : headerIp Options.raw.dlt p.mem = some 0 := by decide +kernel
  obtain ⟨-, -, -, hall⟩ := finished_call_frozen Options.raw Host.numbering pre [] 0
    (by decide +kernel) trivial
  have hs : (loop Options.raw Host.numbering).run Options.raw.start pre = s := rfl
  rw [Machine.run_nil, hs] at hall
  refine ⟨hssrc, ?_⟩
  clear_value s
  rcases (hall p hkept).2 with ⟨ip, j, hb, -⟩ | ⟨hpackets, -⟩
  · obtain ⟨-, hip, -, hfound⟩ := of_branch_rtp hb
    obtain rfl : 0 = ip := Option.some.inj (hip0.symm.trans hip)
    exact absurd (hskip.symm.trans hfound) (by simp)
  · exact hpackets

end PcapSipDump
