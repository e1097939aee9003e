import PcapSipDump.CallTable.FlowSearch
import PcapSipDump.Capture.Branch

/-!
# Which file media goes to

A packet belongs to the flow that the lookups find: the first one in the order of the table that
is registered with the destination of the packet and takes its SSRC, and if there is none, the
first one that is registered with its source.  The packet is dumped when the entry of this flow
has a file.  An entry without a file may come before one with a file (`media_dumped_false`).
-/

namespace PcapSipDump

open Lib Lib.CString

variable {o : Options} {host : Host} {w : World} {p : Packet}

/-- The first flow in the order of the search that has the pair and takes the SSRC. -/
def Calltable.FirstFlow (ct : Calltable) (pair : UInt32 × UInt16) (ssrc : UInt32) (f : Flow) :
    Prop :=
  ct.HasFlow pair.1 pair.2 f ∧ ct.flowTakes ssrc f ∧
    ∀ g, ct.HasFlow pair.1 pair.2 g → g.Before f → ct.flowTakes ssrc g = false

/-- The flow that the lookups of a packet find: the first one with the destination of the packet,
or, if no flow with the destination takes the SSRC, the first one with the source. -/
def LookupFlow (o : Options) (m : Bytes) (ip : ℕ) (ct : Calltable) (f : Flow) : Prop :=
  ct.FirstFlow (dstPair o m ip) (packetSsrc o m ip) f ∨
    (∀ g, ct.HasFlow (dstPair o m ip).1 (dstPair o m ip).2 g →
        ct.flowTakes (packetSsrc o m ip) g = false) ∧
      ct.FirstFlow (srcPair o m ip) (packetSsrc o m ip) f

/-- **The lookups find the flow that they should**: the first one with the destination, else the
first one with the source. -/
lemma rtpLookup_eq_some_iff (hsave : o.optRtpsave ≠ .none) (m : Bytes) (ip : ℕ) (w : World)
    (f : Flow) : (rtpLookup o m ip w).1 = some f ↔ LookupFlow o m ip w.ct f := by
  have hfind : ∀ (pair : UInt32 × UInt16) (g : Flow),
      w.ct.findFlow pair.1 pair.2 (packetSsrc o m ip) = some g ↔
        w.ct.FirstFlow pair (packetSsrc o m ip) g :=
    fun pair g => Calltable.findFlow_eq_some_iff
  rw [LookupFlow, ← hfind, ← hfind, ← Calltable.findFlow_eq_none_iff, rtpLookup_fst hsave,
    Option.or_eq_some_iff]

/-- If a call without a BYE has a flow with the destination or the source, the lookups find one. -/
lemma exists_lookupFlow (hsave : o.optRtpsave ≠ .none) {m : Bytes} {ip : ℕ} {g : Flow}
    (hflow : w.ct.HasFlow (dstPair o m ip).1 (dstPair o m ip).2 g ∨
      w.ct.HasFlow (srcPair o m ip).1 (srcPair o m ip).2 g)
    (hbye : (w.slot g.1).hadBye = false) : ∃ f, (rtpLookup o m ip w).1 = some f := by
  have htakes : w.ct.flowTakes (packetSsrc o m ip) g := Calltable.flowTakes_iff.mpr (Or.inl hbye)
  by_contra hno
  have hnone : ∀ f, ¬LookupFlow o m ip w.ct f := fun f hf =>
    hno ⟨f, (rtpLookup_eq_some_iff hsave m ip w f).mpr hf⟩
  rcases hd : w.ct.findFlow (dstPair o m ip).1 (dstPair o m ip).2 (packetSsrc o m ip) with _ | f
  · rcases hs : w.ct.findFlow (srcPair o m ip).1 (srcPair o m ip).2 (packetSsrc o m ip) with _ | f
    · have hdst := Calltable.findFlow_eq_none_iff.mp hd
      have hsrc := Calltable.findFlow_eq_none_iff.mp hs
      rcases hflow with hg | hg
      · exact absurd (htakes.symm.trans (hdst g hg)) (by decide)
      · exact absurd (htakes.symm.trans (hsrc g hg)) (by decide)
    · exact hnone f (Or.inr ⟨Calltable.findFlow_eq_none_iff.mp hd,
        Calltable.findFlow_eq_some_iff.mp hs⟩)
  · exact hnone f (Or.inl (Calltable.findFlow_eq_some_iff.mp hd))

/-- **Which file media goes to.**  In every state that the capture loop reaches, with the modes
`rtp` and `rtp+rtcp`, a packet for which some call without a BYE has a flow with its destination
or its source belongs to exactly one flow, the first with the destination, else the first with
the source; it is dumped once into the file of the entry of this flow if the entry has one, and
else not at all. -/
theorem media_dumped_iff (o : Options) (host : Host) (inputs : List Input) (p : Packet) (ip : ℕ)
    (g : Flow) (hmode : o.optRtpsave = .rtp ∨ o.optRtpsave = .rtpRtcp)
    (hlater : laterFragment o p = none) (hip : headerIp o.dlt p.mem = some ip)
    (hadm : isAdmitted o.useTcp o.dlt p.caplen p.mem ip)
    (hflow : let w := (afterPass ((loop o host).run o.start inputs) (.packet p)).world
      w.ct.HasFlow (dstPair o p.mem ip).1 (dstPair o p.mem ip).2 g ∨
        w.ct.HasFlow (srcPair o p.mem ip).1 (srcPair o p.mem ip).2 g)
    (hbye : ((afterPass ((loop o host).run o.start inputs) (.packet p)).world.slot g.1).hadBye =
      false) :
    let s := (loop o host).run o.start inputs
    let w := (afterPass s (.packet p)).world
    let s' := (loop o host).next s (.packet p)
    ∃ f, (∀ f', LookupFlow o p.mem ip w.ct f' ↔ f' = f) ∧
      s'.world.written =
        s.world.written ++ (w.slot f.1).fPcap.toList.map (fun h => (.rtp f.1, h, p.record)) ∧
      (s'.world.written ≠ s.world.written ↔ (w.slot f.1).fPcap ≠ none) := by
  intro s w s'
  have hsave : o.optRtpsave ≠ .none := by
    rcases hmode with h | h <;> simp [h]
  obtain ⟨f, hf⟩ := exists_lookupFlow hsave hflow hbye
  have hb : branch o p w = .rtp ip f := by
    have hf' : (rtpLookup o p.mem ip w).1 = some f := hf
    simp only [branch, hlater, hip, if_pos hadm, admittedBranch, hf']
  have hsaves : ∀ data e, savesPayload o data e = true := by
    intro data e
    have hevent : o.optRtpsave ≠ .rtpEvent := by
      rcases hmode with h | h <;> simp [h]
    simp [savesPayload, hevent]
  have hwritten : s'.world.written =
      s.world.written ++ (w.slot f.1).fPcap.toList.map (fun h => (.rtp f.1, h, p.record)) := by
    have hw : w.ct.TableInv := ((owns_run o host inputs).afterPass _).tableInv
    have hnext := written_loop o host (s := s) (a := .packet p) hw
    rw [inputDumps, hb, Branch.dumps, if_pos (hsaves _ _)] at hnext
    exact hnext
  refine ⟨f, fun f' => ?_, hwritten, ?_⟩
  · rw [← rtpLookup_eq_some_iff hsave, hf, Option.some.injEq]
    exact eq_comm
  · rw [hwritten]
    rcases (w.slot f.1).fPcap with _ | h
    · simp
    · simp

/-- One call, and media to the address that it has announced. -/
theorem media_dumped_single :
    let p : Packet := .captured 1001 (media 4000 5)
    let s := (loop Options.raw Host.numbering).run Options.raw.start
      [.packet (.captured 1000 (invite "x"))]
    let s' := (loop Options.raw Host.numbering).next s (.packet p)
    s'.world.written ≠ s.world.written := by
  intro p s s'
  obtain ⟨f, hf, -, hiff⟩ := media_dumped_iff Options.raw Host.numbering
    [.packet (.captured 1000 (invite "x"))] p 0 (0, 0) (Or.inr rfl) (by decide +kernel)
    (by decide +kernel) (by decide +kernel) (Or.inl (by decide +kernel)) (by decide +kernel)
  have hfound : (rtpLookup Options.raw p.mem 0 (afterPass s (.packet p)).world).1 =
      some (0, 0) := by decide +kernel
  have hfile : ((afterPass s (.packet p)).world.slot 0).fPcap ≠ none := by decide +kernel
  have hs : (loop Options.raw Host.numbering).run Options.raw.start
      [.packet (.captured 1000 (invite "x"))] = s := rfl
  rw [hs] at hf hiff
  obtain rfl : (0, 0) = f :=
    (hf (0, 0)).mp ((rtpLookup_eq_some_iff (by decide) p.mem 0 _ (0, 0)).mp hfound)
  clear_value s
  exact hiff.mpr hfile

/-- The ACK of call `a` makes an entry without a file and announces an address; the INVITE of call
`b` announces the same one and is recorded.  Media to this address is not dumped. -/
theorem media_dumped_false :
    let p : Packet := .captured 1002 (media 4000 5)
    let s := (loop Options.raw Host.numbering).run Options.raw.start
      [.packet (.captured 1000 (ipv4Udp 1 0 [10, 0, 0, 1] [10, 0, 0, 2] 5060 5060
        (sipRequest "ACK" "a" (sdpBody "10.0.0.1" "4000")))),
       .packet (.captured 1001 (invite "b"))]
    let w := (afterPass s (.packet p)).world
    let s' := (loop Options.raw Host.numbering).next s (.packet p)
    Options.raw.optRtpsave = .rtpRtcp ∧ (w.slot 1).isUsed ∧ (w.slot 1).hadBye = false ∧
      (w.slot 1).fPcap = some 1 ∧
      ((w.slot 1).ip 0, (w.slot 1).port 0) = dstPair Options.raw p.mem 0 ∧ 0 < (w.slot 1).ipN ∧
      s'.world.written = s.world.written := by
  decide +kernel

end PcapSipDump
