import PcapSipDump.CallTable.FlowSearch
import PcapSipDump.Capture.CallHistory
import PcapSipDump.Capture.TimeLimit

/-!
# The capture loop refines the archive

`Archived` relates a state of the capture loop to a state of the archive: the elements in use are
the current calls, each found under its key and describing the history of its call; the fragment
map, the counters and the log hold what the archive knows of datagrams, passes, files and records.
Each input of the loop is a step of the archive (`loop_refines_archive`), and so each run of the
loop is a run of the archive (`loop_run_archived`).
-/

namespace PcapSipDump

open Lib Lib.CString Lib.SlotTable Calltable

variable {o : Options} {host : Host} {w : World} {p : Packet} {s : State} {A : Archive}
  {ct ct' : Calltable} {calls : CallKey → Option Call} {i : ℕ} {c : Call}

/-! ### The current calls -/

/-- The elements in use are the current calls. -/
structure CallsOf (ct : Calltable) (calls : CallKey → Option Call) : Prop where
  described : ∀ i, (ct.slot i).isUsed →
    ∃ c, calls (ct.slot i).key = some c ∧ Describes (ct.slot i) c
  current : ∀ k c, calls k = some c → ∃ i, (ct.slot i).isUsed ∧ (ct.slot i).key = k

lemma CallsOf.find_some (h : CallsOf ct calls) (hct : ct.TableInv) {callId : Bytes}
    (hf : ct.findByCallId callId = some i) :
    (ct.slot i).isUsed ∧ (ct.slot i).key = keyOf callId ∧
      ∃ c, calls (keyOf callId) = some c ∧ Describes (ct.slot i) c := by
  obtain ⟨hu, hk⟩ := hct.findByCallId_eq_some_iff.mp hf
  exact ⟨hu, hk, hk ▸ h.described i hu⟩

lemma CallsOf.find_none (h : CallsOf ct calls) {callId : Bytes}
    (hf : ct.findByCallId callId = none) : calls (keyOf callId) = none := by
  rw [Option.eq_none_iff_forall_ne_some]
  intro c hc
  obtain ⟨i, hu, hk⟩ := h.current _ c hc
  exact findByCallId_eq_none_iff.mp hf i hu hk

/-- The flow that is found belongs to a call that takes the packet. -/
lemma CallsOf.takes_of_findFlow (h : CallsOf ct calls) (hct : ct.TableInv) {q : IpPort}
    {ssrc : UInt32} {f : Flow} (hf : ct.findFlow q.1 q.2 ssrc = some f) :
    (ct.slot f.1).isUsed ∧ f.2.val < (ct.slot f.1).ipN ∧
      ((ct.slot f.1).ip f.2, (ct.slot f.1).port f.2) = q ∧
      ∃ c, calls (ct.slot f.1).key = some c ∧ Describes (ct.slot f.1) c ∧ c.Takes q ssrc := by
  have hu := hct.unusedZero.used_of_findFlow hf
  obtain ⟨⟨hj, hip, hport⟩, htakes, -⟩ := findFlow_eq_some_iff.mp hf
  obtain ⟨c, hc, hd⟩ := h.described f.1 hu
  have hq : ((ct.slot f.1).ip f.2, (ct.slot f.1).port f.2) = q := Prod.ext hip hport
  refine ⟨hu, hj, hq, c, hc, hd, ?_, fun hfin => ?_⟩
  · rw [← hd.pairs, CalltableElement.mem_pairs]
    exact ⟨f.2, hj, hq⟩
  · rw [flowTakes, Bool.or_eq_true, hd.hadBye, hfin, beq_iff_eq, hd.ssrc, if_pos hj, hq] at htakes
    exact htakes.resolve_left (by decide)

/-- Where no flow is found, no call takes the packet. -/
lemma CallsOf.not_takes_of_findFlow (h : CallsOf ct calls) {q : IpPort} {ssrc : UInt32}
    (hf : ct.findFlow q.1 q.2 ssrc = none) : ¬∃ k c, calls k = some c ∧ c.Takes q ssrc := by
  rintro ⟨k, c, hc, hmem, hssrc⟩
  obtain ⟨i, hu, rfl⟩ := h.current k c hc
  obtain ⟨c', hc', hd⟩ := h.described i hu
  obtain rfl := Option.some.inj (hc.symm.trans hc')
  rw [← hd.pairs, CalltableElement.mem_pairs] at hmem
  obtain ⟨j, hj, hq⟩ := hmem
  obtain ⟨hip, hport⟩ := Prod.mk.inj hq
  have hno := findFlow_eq_none_iff.mp hf (i, j) ⟨hj, hip, hport⟩
  have hyes : ct.flowTakes ssrc (i, j) = true := by
    rw [flowTakes, Bool.or_eq_true, Bool.not_eq_true', beq_iff_eq, hd.hadBye, hd.ssrc, if_pos hj,
      hq]
    by_cases hfin : c.finished
    · exact Or.inr (hssrc hfin)
    · exact Or.inl (by simpa using hfin)
  rw [hno] at hyes
  exact absurd hyes (by decide)

/-- One element is given to a call, or changed with its call. -/
lemma CallsOf.set (h : CallsOf ct calls) {e : CalltableElement}
    (hslot : ∀ j, ct'.slot j = if j = i then e else ct.slot j)
    (hold : (ct.slot i).isUsed → (ct.slot i).key = e.key)
    (hother : ∀ j, j ≠ i → (ct.slot j).isUsed → (ct.slot j).key ≠ e.key) (hu : e.isUsed)
    (hd : Describes e c) : CallsOf ct' (Function.update calls e.key (some c)) := by
  refine ⟨fun j hj => ?_, fun k c' hk => ?_⟩
  · rw [hslot] at hj ⊢
    by_cases hji : j = i
    · rw [if_pos hji] at hj ⊢
      exact ⟨c, Function.update_self _ _ _, hd⟩
    · rw [if_neg hji] at hj ⊢
      rw [Function.update_of_ne (hother j hji hj)]
      exact h.described j hj
  · by_cases hke : k = e.key
    · exact ⟨i, by rw [hslot, if_pos rfl]; exact hu, by rw [hslot, if_pos rfl]; exact hke.symm⟩
    · rw [Function.update_of_ne hke] at hk
      obtain ⟨j, hj, hjk⟩ := h.current k c' hk
      have hji : j ≠ i := by
        rintro rfl
        exact hke (hjk.symm.trans (hold hj))
      exact ⟨j, by rw [hslot, if_neg hji]; exact hj, by rw [hslot, if_neg hji]; exact hjk⟩

/-- A known call is changed. -/
lemma CallsOf.change (h : CallsOf ct calls) (hct : ct.TableInv) (hu : (ct.slot i).isUsed)
    {e : CalltableElement} (hslot : ∀ j, ct'.slot j = if j = i then e else ct.slot j)
    (hue : e.isUsed) (hkey : e.key = (ct.slot i).key) (hd : Describes e c) :
    CallsOf ct' (Function.update calls (ct.slot i).key (some c)) := by
  rw [← hkey]
  refine h.set hslot (fun _ => hkey.symm) (fun j hji hj hjk => ?_) hue hd
  exact hji (hct.uniqueKeys j i hj hu (hjk.trans hkey))

lemma CallsOf.congr (h : CallsOf ct calls) (hslot : ∀ j, ct'.slot j = ct.slot j) :
    CallsOf ct' calls := by
  refine ⟨fun j hj => ?_, fun k c hk => ?_⟩
  · rw [hslot] at hj ⊢
    exact h.described j hj
  · obtain ⟨j, hj⟩ := h.current k c hk
    exact ⟨j, by rwa [hslot]⟩

/-- The calls that are over go, and their elements are freed. -/
lemma CallsOf.cleanup (h : CallsOf ct calls) (T : ℤ) : CallsOf (ct.doCleanup T).1 fun k =>
    (calls k).filter fun c => !c.isOver ct.optAbsoluteTimeout T := by
  refine ⟨fun i hi => ?_, fun k c hk => ?_⟩
  · obtain ⟨hdue, hsame⟩ := slot_of_used_doCleanup hi
    rw [hsame] at hi ⊢
    obtain ⟨c, hc, hd⟩ := h.described i hi
    rw [hd.due hi] at hdue
    refine ⟨c, ?_, hd⟩
    rw [hc, Option.filter_some, if_pos (by simpa using hdue)]
  · rw [Option.filter_eq_some_iff] at hk
    obtain ⟨hc, hover⟩ := hk
    obtain ⟨i, hu, rfl⟩ := h.current k c hc
    obtain ⟨c', hc', hd⟩ := h.described i hu
    obtain rfl := Option.some.inj (hc.symm.trans hc')
    have hdue : ¬ct.due T (ct.slot i) := by
      rw [hd.due hu]
      simpa using hover
    exact ⟨i, by rw [slot_doCleanup, if_neg hdue]; exact hu, by rw [slot_doCleanup, if_neg hdue]⟩

/-! ### The relation -/

/-- The call and the file for which `pcap_dump_open` has succeeded. -/
def IoEvent.openedFor : IoEvent → Option (CallKey × Handle)
  | .dumpOpen callId _ (some f) => some (keyOf callId, f)
  | _ => none

/-- The state of the loop is one of the archive. -/
structure Archived (o : Options) (s : State) (A : Archive) : Prop where
  tableInv : s.world.ct.TableInv
  timeout : s.world.ct.optAbsoluteTimeout = o.optAbsoluteTimeout
  calls : CallsOf s.world.ct A.calls
  lastPass : s.lastCleanup = A.lastPass
  matching : s.callSkipCnt = o.skipCntAfter A.matching
  datagrams : ∀ aai, (s.world.ct.ipfrags aai).join = A.datagrams aai
  opened : s.world.log.filterMap IoEvent.openedFor = A.opened
  written : s.world.written.map Prod.snd = A.written

lemma archived_start (o : Options) : Archived o o.start {} where
  tableInv := tableInv_start o
  timeout := rfl
  calls :=
    { described := fun i hi => absurd hi (by rw [show o.start.world.ct.slot i =
        CalltableElement.zero from slot_create _ _ i]; decide)
      current := fun k c hc => nomatch hc }
  lastPass := rfl
  matching := (counted_start o).callSkipCnt
  datagrams _ := rfl
  opened := rfl
  written := rfl

/-! ### Passes -/

lemma openedFor_passCalls (s : State) (a : Input) :
    (passCalls s a).filterMap IoEvent.openedFor = [] := by
  rw [List.filterMap_eq_nil_iff]
  intro e he
  unfold passCalls at he
  split at he
  · exact absurd he List.not_mem_nil
  · rcases mem_doCleanup he with ⟨g, rfl | rfl⟩ | ⟨path, rfl⟩ | ⟨c, rfl⟩ <;> rfl

/-- **The pass of an input** is that of the archive. -/
lemma Archived.afterPass (h : Archived o s A) (a : Input) :
    Archived o (afterPass s a) (A.pass o a) := by
  have hcleanup : ∀ T, CallsOf (s.world.cleanup T).ct (A.expire o T).calls := by
    intro T
    have hpass := h.calls.cleanup T
    rw [h.timeout] at hpass
    exact hpass
  have hopened : (PcapSipDump.afterPass s a).world.log.filterMap IoEvent.openedFor = A.opened := by
    rw [log_afterPass, List.filterMap_append, openedFor_passCalls, List.append_nil, h.opened]
  have hwritten : (PcapSipDump.afterPass s a).world.written.map Prod.snd = A.written := by
    rw [written_afterPass, h.written]
  have hinv : (PcapSipDump.afterPass s a).world.ct.TableInv :=
    afterPass_invariant (P := fun v : World => v.ct.TableInv) h.tableInv
      fun T _ => h.tableInv.doCleanup T
  cases a with
  | cleanup T => exact ⟨hinv, h.timeout, hcleanup T, h.lastPass, h.matching, h.datagrams, hopened,
      hwritten⟩
  | packet p =>
    simp only [PcapSipDump.afterPass, State.periodicCleanup, h.lastPass] at hinv hopened hwritten ⊢
    simp only [Archive.pass]
    by_cases hdue : cleanupDue p.ts A.lastPass
    · simp only [if_pos hdue] at hinv hopened hwritten ⊢
      exact ⟨hinv, h.timeout, hcleanup p.ts, rfl, h.matching, h.datagrams, hopened, hwritten⟩
    · simp only [if_neg hdue] at hinv hopened hwritten ⊢
      exact h

/-! ### Packets -/

/-- What the branch of a packet has to do with the reading of the packet. -/
lemma branch_reading (o : Options) (p : Packet) (w : World) :
    (reading o p = .other ∧ branch o p w = .skip) ∨
      (∃ aai last, reading o p = .fragment aai last ∧ branch o p w = .fragment aai last) ∨
      ∃ ip message, reading o p = .payload (lookupFlows o p.mem ip) (packetSsrc o p.mem ip)
          (u8 (p.mem.drop (dataPos p.mem ip)) 1) message (recordKey p.terminate.mem ip) ∧
        ((∃ f, (rtpLookup o p.mem ip w).1 = some f ∧ branch o p w = .rtp ip f) ∨
          (rtpLookup o p.mem ip w = (none, w) ∧
            ((message = none ∧ branch o p w = .skip) ∨
              ∃ msg, message = some msg ∧ branch o p w = .sip ip msg))) := by
  unfold reading
  rcases hl : laterFragment o p with _ | ⟨aai, last⟩
  · rcases hip : headerIp o.dlt p.mem with _ | ip
    · exact Or.inl ⟨rfl, by simp only [branch, hl, hip]⟩
    by_cases hadm : isAdmitted o.useTcp o.dlt p.caplen p.mem ip
    · simp only [if_pos hadm]
      refine Or.inr (Or.inr ⟨ip, _, rfl, ?_⟩)
      rw [branch_of_admitted hl hip hadm, admittedBranch]
      rcases rtpLookup_cases o p.mem ip w with he | ⟨f, addr, port, -, -, he⟩
      · refine Or.inr ⟨he, ?_⟩
        rw [he]
        rcases sipMethod (p.mem.drop (dataPos p.mem ip)) with _ | method
        · exact Or.inl ⟨rfl, rfl⟩
        · exact Or.inr ⟨_, rfl, rfl⟩
      · rw [he]
        exact Or.inl ⟨f, rfl, rfl⟩
    · exact Or.inl ⟨by simp only [if_neg hadm], by simp only [branch, hl, hip, if_neg hadm]⟩
  · exact Or.inr (Or.inl ⟨aai, last, rfl, branch_of_laterFragment hl w⟩)

/-- The lookups go through the flows of a packet in their order, up to the first that is found. -/
lemma rtpLookup_flows {ip : ℕ} {f : Flow} (hf : (rtpLookup o p.mem ip w).1 = some f) :
    ∃ before q after, lookupFlows o p.mem ip = before ++ q :: after ∧
      (∀ q' ∈ before, w.ct.findFlow q'.1 q'.2 (packetSsrc o p.mem ip) = none) ∧
      w.ct.findFlow q.1 q.2 (packetSsrc o p.mem ip) = some f := by
  have hsave : o.optRtpsave ≠ .none := by
    intro hnone
    rw [rtpLookup, if_pos hnone] at hf
    cases hf
  rw [rtpLookup_fst hsave, Option.or_eq_some_iff] at hf
  rw [lookupFlows, if_neg hsave]
  rcases hf with hd | ⟨hd, hs⟩
  · exact ⟨[], dstPair o p.mem ip, [srcPair o p.mem ip], rfl, by simp, hd⟩
  · exact ⟨[dstPair o p.mem ip], srcPair o p.mem ip, [], rfl, by simpa using hd, hs⟩

lemma rtpLookup_no_flow {ip : ℕ} (hf : rtpLookup o p.mem ip w = (none, w)) :
    ∀ q ∈ lookupFlows o p.mem ip, w.ct.findFlow q.1 q.2 (packetSsrc o p.mem ip) = none := by
  intro q hq
  by_cases hsave : o.optRtpsave = .none
  · rw [lookupFlows, if_pos hsave] at hq
    exact absurd hq List.not_mem_nil
  have hnone : (rtpLookup o p.mem ip w).1 = none := by rw [hf]
  rw [rtpLookup_fst hsave, Option.or_eq_none_iff] at hnone
  rw [lookupFlows, if_neg hsave, List.mem_cons, List.mem_singleton] at hq
  rcases hq with rfl | rfl
  · exact hnone.1
  · exact hnone.2

lemma openedFor_dumpCalls (file : Option Handle) (via : Via) (r : Record) (flushes : List Bool) :
    (file.toList.flatMap fun f => dumpCalls via f r flushes).filterMap IoEvent.openedFor = [] := by
  rw [List.filterMap_eq_nil_iff]
  intro e he
  obtain ⟨f, -, he⟩ := List.mem_flatMap.mp he
  rcases List.mem_cons.mp he with rfl | he
  · rfl
  · obtain ⟨_, -, rfl⟩ := List.mem_map.mp he
    rfl

/-- A packet relates the states when it does so part by part. -/
lemma Archived.of_parts (h : Archived o s A) {B : Archive}
    (hcalls : CallsOf (dispatch o host p s).world.ct B.calls) (hlast : B.lastPass = A.lastPass)
    (hmatching : (dispatch o host p s).callSkipCnt = o.skipCntAfter B.matching)
    (hdatagrams : ∀ aai, ((branch o p s.world).ipfrags o host p s aai).join = B.datagrams aai)
    (hopened : A.opened ++ ((branch o p s.world).calls o host p s).filterMap IoEvent.openedFor =
      B.opened)
    (hwritten : A.written ++ ((branch o p s.world).dumps o host p s).map Prod.snd = B.written) :
    Archived o (dispatch o host p s) B where
  tableInv := tableInv_dispatch o host p h.tableInv
  timeout := by
    refine (dispatch_invariant (P := fun v : World => v.ct.TableInv ∧
      v.ct.optAbsoluteTimeout = o.optAbsoluteTimeout) (fun _ hv => hv.1) ?_
      ⟨h.tableInv, h.timeout⟩).2
    rintro v op hop - ⟨hv, hlimit⟩
    exact ⟨tableInv_next hop hv, (settings_next op).1.trans hlimit⟩
  calls := hcalls
  lastPass := (counters_dispatch o host p s).1.trans (h.lastPass.trans hlast.symm)
  matching := hmatching
  datagrams aai := by
    rw [ipfrags_dispatch o host p h.tableInv]
    exact hdatagrams aai
  opened := by
    rw [log_dispatch o host p h.tableInv, List.filterMap_append, h.opened]
    exact hopened
  written := by
    rw [written_dispatch o host p h.tableInv, List.map_append, h.written]
    exact hwritten

lemma Archived.skip (h : Archived o s A) (hb : branch o p s.world = .skip) :
    Archived o (dispatch o host p s) A := by
  rw [dispatch_eq, hb]
  exact h

/-- **A fragment** goes to the file of its datagram. -/
lemma Archived.fragment (h : Archived o s A) {aai : AddrAddrId} {last : Bool}
    (hb : branch o p s.world = .fragment aai last) :
    Archived o (dispatch o host p s) { A.write (A.datagrams aai) p.record with
      datagrams := if last then Function.update A.datagrams aai none else A.datagrams } := by
  have hfile : (s.world.ct.getIpfrag aai).1 = A.datagrams aai := by
    rw [← h.datagrams, getIpfrag]
    rcases s.world.ct.ipfrags aai with _ | f <;> rfl
  refine h.of_parts ?_ rfl ?_ (fun k => ?_) ?_ ?_
  · refine h.calls.congr fun j => ?_
    rw [dispatch_eq, hb]
    simp only [Branch.run, Calltable.slot, World.table_fragment]
  · rw [dispatch_eq, hb]
    exact h.matching
  · rw [hb, Branch.ipfrags]
    have hk := h.datagrams k
    have haai := h.datagrams aai
    have hupdate : ∀ v : Option (Option Handle), v.join = none →
        (Function.update s.world.ct.ipfrags aai v k).join =
          Function.update A.datagrams aai none k := by
      intro v hv
      by_cases hkey : k = aai
      · rw [hkey, Function.update_self, Function.update_self, hv]
      · rw [Function.update_of_ne hkey, Function.update_of_ne hkey, hk]
    rcases hmap : s.world.ct.ipfrags aai with _ | _ | f
    · -- a datagram that is not known gets no file
      rw [hmap] at haai
      have hsame : Function.update A.datagrams aai none = A.datagrams :=
        Function.update_eq_self_iff.mpr haai
      dsimp only
      rw [hupdate _ rfl, hsame, ite_self]
    · rw [hmap] at haai
      have hsame : Function.update A.datagrams aai none = A.datagrams :=
        Function.update_eq_self_iff.mpr haai
      dsimp only
      rw [hupdate _ rfl, hsame, ite_self]
    · cases last
      · exact hk
      · exact hupdate none rfl
  · rw [hb, Branch.calls, openedFor_dumpCalls, List.append_nil]
    rfl
  · rw [hb, Branch.dumps, hfile, List.map_map]
    rfl

/-- The element of a flow that the lookups have found, after its packet. -/
lemma slot_rtpBranch_eq (hw : w.ct.UnusedZero) {ip : ℕ} {f : Flow}
    (hf : (rtpLookup o p.mem ip w).1 = some f) (i : ℕ) :
    (rtpBranch o p ip f (rtpLookup o p.mem ip w).2).slot i =
      if i = f.1 then
        (if (w.slot f.1).fPcap.isSome &&
            savesPayload o (p.mem.drop (dataPos p.mem ip)) (w.slot f.1) then [.rtp p.ts]
          else []).foldl (fun e w => ElementWrite.apply w e)
          ((w.slot f.1).setSsrc f.2 (packetSsrc o p.mem ip))
      else w.slot i := by
  rcases rtpLookup_cases o p.mem ip w with he | ⟨⟨k, j⟩, addr, port, -, hflow, he⟩
  · rw [he] at hf
    cases hf
  rw [he] at hf
  obtain rfl : (k, j) = f := Option.some.inj hf
  have hu : (w.ct.slot k).isUsed := hw.used_of_findFlow hflow
  obtain ⟨w₁, hw₁⟩ : ∃ v, v = (rtpLookup o p.mem ip w).2 := ⟨_, rfl⟩
  have hset : ∀ i, w₁.slot i = if i = k then
      (w.slot k).setSsrc j (packetSsrc o p.mem ip) else w.slot i := by
    intro i
    rw [hw₁, he]
    simp only [World.findIpPortSsrc, Calltable.findIpPortSsrc, hflow]
    refine (Calltable.slot_modify_of_used hu _ i).trans ?_
    by_cases hik : i = k
    · rw [if_pos hik, if_pos hik, hik]
    · rw [if_neg hik, if_neg hik]
  have hk : w₁.slot k = (w.slot k).setSsrc j (packetSsrc o p.mem ip) := by rw [hset, if_pos rfl]
  have hfile : (w₁.slot k).fPcap = (w.slot k).fPcap := by rw [hk]; rfl
  have hsaves : ∀ data, savesPayload o data (w₁.slot k) = savesPayload o data (w.slot k) := by
    intro data
    rw [hk]
    rfl
  rw [← hw₁, rtpBranch, hsaves]
  by_cases hdata : savesPayload o (p.mem.drop (dataPos p.mem ip)) (w.slot k)
  · rw [if_pos hdata, hdata, Bool.and_true, World.rtpDump, hfile]
    rcases hp : (w.slot k).fPcap with _ | f
    · exact hset i
    · have hused : (w₁.slot k).isUsed := by
        rw [hk]
        exact hu
      dsimp only
      rw [World.slot, World.ct_dump, ← World.slot, World.slot_write hused, hset]
      split <;> rfl
  · have hno : savesPayload o (p.mem.drop (dataPos p.mem ip)) (w.slot k) = false := by
      simpa using hdata
    rw [if_neg hdata, hno, Bool.and_false]
    exact hset i

/-- **A packet of a flow** that is found is media of the call of the flow. -/
lemma Archived.media (h : Archived o s A) (host : Host) {ip : ℕ} {f : Flow} {q : IpPort}
    (hb : branch o p s.world = .rtp ip f)
    (hf : s.world.ct.findFlow q.1 q.2 (packetSsrc o p.mem ip) = some f) :
    ∃ k c, A.calls k = some c ∧ ∃ htakes : c.Takes q (packetSsrc o p.mem ip),
      Archived o (dispatch o host p s)
        ((A.update k (c.receive ⟨q, packetSsrc o p.mem ip, p.ts,
          c.saves o (u8 (p.mem.drop (dataPos p.mem ip)) 1)⟩ htakes.1)).write
          (if c.saves o (u8 (p.mem.drop (dataPos p.mem ip)) 1) then c.file else none)
          p.record) := by
  have hinv := h.tableInv
  obtain ⟨hu, hj, hq, c, hc, hd, htakes⟩ := h.calls.takes_of_findFlow hinv hf
  obtain ⟨-, -, -, hfound⟩ := of_branch_rtp hb
  have hslot := slot_rtpBranch_eq hinv.unusedZero hfound
  have hsaves := hd.saves (o := o) (p.mem.drop (dataPos p.mem ip))
  refine ⟨_, c, hc, htakes, h.of_parts ?_ rfl ?_ ?_ ?_ ?_⟩
  · obtain ⟨e, he⟩ : ∃ e, e = (if (s.world.slot f.1).fPcap.isSome &&
        savesPayload o (p.mem.drop (dataPos p.mem ip)) (s.world.slot f.1) then [.rtp p.ts]
        else []).foldl (fun e w => ElementWrite.apply w e)
          ((s.world.slot f.1).setSsrc f.2 (packetSsrc o p.mem ip)) := ⟨_, rfl⟩
    have hsame : e.isUsed = (s.world.slot f.1).isUsed ∧ e.key = (s.world.slot f.1).key := by
      rw [he]
      split <;> exact ⟨rfl, rfl⟩
    refine h.calls.change hinv hu (e := e) (fun i => ?_) (hsame.1.trans hu) hsame.2 ?_
    · rw [dispatch_eq, hb]
      simp only [Branch.run]
      rw [he]
      exact hslot i
    · rw [he, hsaves]
      exact hd.receive (hinv.flowsDistinct f.1) hj (m := ⟨q, packetSsrc o p.mem ip, p.ts,
        c.saves o (u8 (p.mem.drop (dataPos p.mem ip)) 1)⟩) htakes.1 hq
  · rw [dispatch_eq, hb]
    exact h.matching
  · intro aai
    rw [hb]
    exact h.datagrams aai
  · rw [hb, Branch.calls]
    split
    · rw [openedFor_dumpCalls, List.append_nil]
      rfl
    · exact List.append_nil _
  · rw [hb, Branch.dumps, Archive.write, ← hsaves, hd.fPcap]
    by_cases hdata : savesPayload o (p.mem.drop (dataPos p.mem ip)) (s.world.slot f.1)
    · rw [if_pos hdata, hdata, Bool.and_true, List.map_map]
      rcases c.file with _ | g <;> rfl
    · have hno : savesPayload o (p.mem.drop (dataPos p.mem ip)) (s.world.slot f.1) = false := by
        simpa using hdata
      rw [if_neg hdata, hno, Bool.and_false]
      rfl

/-! ### Messages -/

/-- **A message of a call** that is in the table. -/
lemma Archived.tell (h : Archived o s A) {ip : ℕ} {msg : SipMessage}
    (hbody : ∀ e ∈ msg.body, e.IsSdp) (hu : (s.world.slot i).isUsed) {k : CallKey}
    (hkey : (s.world.slot i).key = k) (hc : A.calls k = some c) :
    Archived o { s with world := sipCall o p.terminate ip i msg s.world }
      (A.tell k (c.hear msg) p (recordKey p.terminate.mem ip)) := by
  have hinv := h.tableInv
  subst hkey
  obtain ⟨c', hc', hd⟩ := h.calls.described i hu
  obtain rfl := Option.some.inj (hc.symm.trans hc')
  obtain ⟨hwritten, hfrags, -⟩ := sipCall_frame o p.terminate ip hbody hu
  have hlog : (sipCall o p.terminate ip i msg s.world).log = _ := log_sipCall hbody hu
  have hsip := SipMessage.isSip_writes hbody
  have hperforms : Performs Host.numbering o.libbsd p.terminate s.world
      (sipCall o p.terminate ip i msg s.world) := performs_sipCall rfl hbody hinv hu
  refine ⟨hperforms.tableInv hinv, ?_, ?_, h.lastPass.trans (A.lastPass_tell _ _ _ _).symm, ?_,
    fun aai => ?_,
    ?_, ?_⟩
  · refine Eq.trans ?_ h.timeout
    rw [sipCall_eq]
    rcases recordKey p.terminate.mem ip with _ | k <;>
      simp only [World.recordFrag, World.addIpfrag, Calltable.addIpfrag, World.ct_sipDump,
        foldl_write_eq] <;> rfl
  · rw [Archive.calls_tell]
    have hsame : ((msg.writes.foldl (fun e w => w.apply e) (s.world.slot i)).isUsed =
        (s.world.slot i).isUsed) ∧ (msg.writes.foldl (fun e w => w.apply e) (s.world.slot i)).key =
          (s.world.slot i).key :=
      foldl_apply_invariant (P := fun e => e.isUsed = (s.world.slot i).isUsed ∧
        e.key = (s.world.slot i).key) (fun w _ e he => ⟨(w.isUsed_apply e).trans he.1,
          (w.key_apply e).trans he.2⟩) ⟨rfl, rfl⟩
    refine h.calls.change hinv hu (e := msg.writes.foldl (fun e w => w.apply e) (s.world.slot i))
      (fun j => ?_) (hsame.1.trans hu) hsame.2 (hd.hear (hinv.flowsDistinct i) hbody)
    refine (slot_sipCall hu j).trans ?_
    by_cases hji : j = i
    · rw [if_pos hji, if_pos hji, hji]
    · rw [if_neg hji, if_neg hji]
  · rw [Archive.matching_tell]
    exact h.matching
  · rw [Archive.datagrams_tell, hfrags]
    rcases recordKey p.terminate.mem ip with _ | k
    · exact h.datagrams aai
    · have hfile : (c.hear msg).file = (s.world.slot i).fPcap := hd.fPcap.symm
      dsimp only
      rw [hfile]
      by_cases hk : aai = k
      · rw [hk, Function.update_self, Function.update_self]
        rfl
      · rw [Function.update_of_ne hk, Function.update_of_ne hk]
        exact h.datagrams aai
  · rw [Archive.opened_tell, ← h.opened]
    simp only [hlog, List.filterMap_append, openedFor_dumpCalls, List.append_nil]
  · rw [Archive.written_tell, ← h.written]
    simp only [hwritten, List.map_append, List.map_map]
    rw [show (c.hear msg).file = (s.world.slot i).fPcap from hd.fPcap.symm]
    rfl

/-- The file of a new call. -/
lemma newCall_opens (o : Options) (host : Host) (msg : SipMessage) (callId : Bytes) (ts : ℤ)
    (hu : (s.world.slot i).isUsed) : ∃ file fnPcap,
      (∀ j, (newCall o host msg callId ts i s).world.slot j =
        if j = i then (ElementWrite.file file fnPcap).apply (s.world.slot j)
        else s.world.slot j) ∧
      (newCallCalls o host msg callId ts s).filterMap IoEvent.openedFor =
        file.toList.map (fun f => (keyOf callId, f)) ∧
      (∀ f, file = some f → o.methodFilter msg.method ∧ s.callSkipCnt - 1 ≤ 0 ∧
        f ∉ pcapFiles.opened s.world.log) ∧
      (newCall o host msg callId ts i s).callSkipCnt =
        (if o.methodFilter msg.method then
          if s.callSkipCnt - 1 ≤ 0 then o.optCallSkipN else s.callSkipCnt - 1
        else s.callSkipCnt) ∧
      (newCall o host msg callId ts i s).world.ct.optAbsoluteTimeout =
        s.world.ct.optAbsoluteTimeout ∧
      (newCall o host msg callId ts i s).lastCleanup = s.lastCleanup := by
  rcases newCall_cases o host msg callId ts i s with ⟨hm, he⟩ | ⟨hm, hskip, he⟩ | ⟨hm, hdue, he⟩
  · rw [he, if_neg hm, newCallCalls, if_neg fun h => hm h.1]
    exact ⟨none, _, World.slot_write hu _, rfl,
      fun f hf => absurd hf (Option.some_ne_none f).symm, rfl, rfl, rfl⟩
  · rw [he, if_pos hm, if_neg (not_le.mpr hskip), newCallCalls,
      if_neg fun h => not_le.mpr hskip h.2]
    exact ⟨none, _, World.slot_write hu _, rfl,
      fun f hf => absurd hf (Option.some_ne_none f).symm, rfl, rfl, rfl⟩
  · rw [if_pos hm, if_pos hdue, show newCallCalls o host msg callId ts s = _ from
      if_pos ⟨hm, hdue⟩, he]
    refine ⟨_, _, World.slot_write (w := World.mk s.world.ct _) hu _, ?_,
      fun f hf => ⟨hm, hdue, Host.not_mem_opened hf⟩, rfl, rfl, rfl⟩
    have hmkdir : ∀ dir : Option Bytes,
        (dir.map IoEvent.mkdirP).toList.filterMap IoEvent.openedFor = [] := by
      intro dir
      cases dir <;> rfl
    have hopen : ∀ (fn : Bytes) (f : Option Handle),
        [IoEvent.dumpOpen callId fn f].filterMap IoEvent.openedFor =
          f.toList.map fun f => (keyOf callId, f) := by
      intro fn f
      cases f <;> rfl
    rw [List.filterMap_append, hmkdir, List.nil_append, hopen]

/-- **A message adds its call**, whose element is then as before the first message. -/
lemma Archived.added (h : Archived o s A) {msg : SipMessage} {callId : Bytes}
    (hid : msg.callId = some callId) (hf : s.world.ct.findByCallId callId = none)
    (hn : numberFilterMatched o msg) (host : Host) (p : Packet) :
    ∃ file t, A.MayOpen o msg file ∧
      findOrAdd o host msg p.ts s = (some s.world.ct.addIdx, t) ∧
      (t.world.slot s.world.ct.addIdx).isUsed ∧
      (t.world.slot s.world.ct.addIdx).key = keyOf callId ∧
      Archived o t ((A.enrol o (keyOf callId) file msg).update (keyOf callId)
        (Call.fresh p.ts file)) := by
  have hinv := h.tableInv
  obtain ⟨t, ht⟩ : ∃ t, t = newCall o host msg callId p.ts s.world.ct.addIdx
      (s.added msg callId p.ts) := ⟨_, rfl⟩
  have hfind : findOrAdd o host msg p.ts s = (some s.world.ct.addIdx, t) := by
    rw [findOrAdd_added hid hf hn host p.ts, ht]
    rfl
  have hlog := log_findOrAdd o host msg p.ts s
  obtain ⟨hwritten, hfrags⟩ := findOrAdd_frame o host msg p.ts s
  have hperforms : Performs host o.libbsd p s.world (findOrAdd o host msg p.ts s).2.world :=
    (performs_findOrAdd hinv).1
  have hinv' := hperforms.tableInv hinv
  rw [hfind] at hlog hwritten hfrags hinv'
  obtain ⟨hu, -, hkey⟩ := s.world.slot_added callId msg.caller.toBytes msg.called.toBytes p.ts
  obtain ⟨file, fnPcap, hslot, hopens, hfile, hcnt, htimeout, hlast⟩ :=
    newCall_opens o host msg callId p.ts (s := s.added msg callId p.ts) hu
  rw [← ht] at hslot hcnt htimeout hlast
  -- the element that is taken was all zero
  have hzero : s.world.slot s.world.ct.addIdx = CalltableElement.zero :=
    hinv.unusedZero _ s.world.ct.isUsed_addIdx
  obtain ⟨e, he⟩ : ∃ e, e = (ElementWrite.file file fnPcap).apply
      (CalltableElement.zero.init callId msg.caller.toBytes msg.called.toBytes p.ts) := ⟨_, rfl⟩
  have hekey : e.key = keyOf callId := by
    rw [he, ElementWrite.key_apply, CalltableElement.key_init]
  have hslots : ∀ j, t.world.slot j =
      if j = s.world.ct.addIdx then e else s.world.slot j := by
    intro j
    have hadd : (s.added msg callId p.ts).world.slot j = _ := s.world.ct.slot_add _ _ _ _ j
    rw [hslot, hadd]
    by_cases hj : j = s.world.ct.addIdx
    · rw [if_pos hj, if_pos hj, if_pos hj, he, hj, ← hzero]
    · rw [if_neg hj, if_neg hj, if_neg hj]
  have hcalls : CallsOf t.world.ct
      (Function.update A.calls (keyOf callId) (some (Call.fresh p.ts file))) := by
    rw [← hekey]
    refine h.calls.set hslots (fun hused => ?_) (fun j _ hj hjk => ?_) (by rw [he]; rfl)
      (he ▸ describes_fresh callId _ _ p.ts file fnPcap)
    · exact absurd hused (by rw [s.world.ct.isUsed_addIdx]; decide)
    · exact findByCallId_eq_none_iff.mp hf j hj (hjk.trans hekey)
  have hcalls' : findOrAddCalls o host msg p.ts s =
      (s.world.ct.add callId msg.caller.toBytes msg.called.toBytes p.ts).2.2 ++
        newCallCalls o host msg callId p.ts (s.added msg callId p.ts) := by
    simp only [findOrAddCalls, hid, hf, if_pos hn]
  refine ⟨file, t, ?_, hfind, by rw [hslots, if_pos rfl, he]; rfl,
    by rw [hslots, if_pos rfl, hekey],
    hinv', htimeout.trans h.timeout, hcalls, hlast.trans h.lastPass, ?_, fun aai => ?_, ?_, ?_⟩
  · intro f hff
    obtain ⟨hm, hdue, hfresh⟩ := hfile f hff
    have hdue' : o.skipCntAfter A.matching - 1 ≤ 0 := h.matching ▸ hdue
    refine ⟨hm, (o.skipCntAfter_due _).mp hdue', fun k hk => hfresh ?_⟩
    rw [← h.opened, List.mem_filterMap] at hk
    obtain ⟨ev, hev, hk⟩ := hk
    refine pcapFiles.mem_opened.mpr ⟨ev, List.mem_append_left _ hev, ?_⟩
    unfold IoEvent.openedFor at hk
    split at hk
    · obtain ⟨-, rfl⟩ := Prod.mk.inj (Option.some.inj hk)
      rfl
    · cases hk
  · rw [hcnt, show (s.added msg callId p.ts).callSkipCnt = s.callSkipCnt from rfl, h.matching,
      o.skipCntAfter_succ]
    simp only [Archive.update, Archive.enrol]
    split
    · rfl
    · rw [Nat.add_zero]
  · rw [hfrags]
    exact h.datagrams aai
  · rw [hlog, hcalls', List.filterMap_append, List.filterMap_append, hopens, h.opened]
    rfl
  · rw [hwritten]
    exact h.written

/-! ### Runs -/

/-- **A packet is heard by the archive.** -/
theorem Archived.hears (h : Archived o s A) (host : Host) (p : Packet) :
    ∃ B, A.Hears o p B ∧ Archived o (dispatch o host p s) B := by
  rcases branch_reading o p s.world with ⟨hr, hb⟩ | ⟨aai, last, hr, hb⟩ | ⟨ip, message, hr,
    ⟨f, hf, hb⟩ | ⟨hlookup, ⟨rfl, hb⟩ | ⟨msg, rfl, hb⟩⟩⟩
  · exact ⟨A, .other hr, h.skip hb⟩
  · exact ⟨_, .fragment hr, h.fragment hb⟩
  · obtain ⟨before, q, after, hflows, hbefore, hfound⟩ := rtpLookup_flows hf
    obtain ⟨k, c, hc, htakes, harch⟩ := h.media host hb hfound
    exact ⟨_, .media hr hflows
      (fun q' hq' => h.calls.not_takes_of_findFlow (hbefore q' hq')) hc htakes, harch⟩
  · exact ⟨A, .stray hr (fun q hq => h.calls.not_takes_of_findFlow
      (rtpLookup_no_flow hlookup q hq)) (fun _ _ hm => nomatch hm), h.skip hb⟩
  · have hflows : ∀ q ∈ lookupFlows o p.mem ip, ¬A.Wants q (packetSsrc o p.mem ip) :=
      fun q hq => h.calls.not_takes_of_findFlow (rtpLookup_no_flow hlookup q hq)
    have hbody := body_of_branch_sip hb
    have hkept : findOrAdd o host msg p.ts s = (none, s) → Archived o (dispatch o host p s) A := by
      intro hfind
      rw [dispatch_eq, hb]
      simp only [Branch.run, hfind]
      exact h
    rcases hid : msg.callId with _ | callId
    · refine ⟨A, .stray hr hflows ?_, hkept (by simp only [findOrAdd, hid])⟩
      rintro m callId ⟨⟩ hm
      rw [hid] at hm
      cases hm
    rcases hfind : s.world.ct.findByCallId callId with _ | i
    · by_cases hn : numberFilterMatched o msg
      · obtain ⟨file, t, hmay, hadd, hu, hkey, harch⟩ := h.added hid hfind hn host p
        refine ⟨_, .new hr hflows hid (h.calls.find_none hfind) hn hmay, ?_⟩
        have htell : Archived o { t with world := sipCall o p.terminate ip _ msg t.world } _ :=
          harch.tell hbody hu hkey (Function.update_self _ _ _)
        rw [Archive.update_tell] at htell
        rw [dispatch_eq, hb]
        simp only [Branch.run, hadd]
        exact htell
      · refine ⟨A, .stray hr hflows ?_, hkept (findOrAdd_refused hid hfind hn host p.ts)⟩
        rintro m callId' ⟨⟩ hm
        obtain rfl := Option.some.inj (hid.symm.trans hm)
        exact ⟨h.calls.find_none hfind, hn⟩
    · obtain ⟨hu, hkey, c, hc, -⟩ := h.calls.find_some h.tableInv hfind
      refine ⟨_, .known hr hflows hid hc, ?_⟩
      rw [dispatch_eq, hb]
      simp only [Branch.run, findOrAdd_found hid hfind o host p.ts]
      exact h.tell hbody hu hkey hc

/-- **The capture loop refines the archive.** -/
theorem loop_refines_archive (o : Options) (host : Host) :
    (Archive.system o).Refines (loop o host) (Archived o) := by
  intro s a A h
  have hpass := h.afterPass a
  cases a with
  | packet p => exact hpass.hears host p
  | cleanup T => exact ⟨_, rfl, hpass⟩

/-- **Each run of the capture loop is one of the archive** on the same inputs, which writes the same
records to the same files. -/
theorem loop_run_archived (o : Options) (host : Host) (inputs : List Input) :
    ∃ A, (Archive.system o).Run {} inputs A ∧ Archived o ((loop o host).run o.start inputs) A :=
  (loop_refines_archive o host).run (archived_start o) inputs

end PcapSipDump
