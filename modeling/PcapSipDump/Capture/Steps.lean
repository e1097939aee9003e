import PcapSipDump.Capture.Loop

/-!
# A packet as a run of operations

Every packet makes the capture loop perform, after the cleanup pass, a legal run of operations
on the world, none of which is a pass (`performs_dispatch`).  So an invariant of the operations
is an invariant of the capture loop, and what happens to an element is said once: it keeps its
call, or it is zeroed by a pass, taken by a new call, or given a file (`slot_next`).
-/

namespace PcapSipDump

open Lib Lib.CString

variable {o : Options} {host : Host} {libbsd : Bool} {w : World}

namespace World

@[simp] lemma ct_dump (via : Via) (f : Handle) (packet : Record) (flushes : List Bool) :
    (w.dump via f packet flushes).ct = w.ct := rfl

/-- An element that is used after a pass is one that the pass has left alone. -/
lemma slot_of_used_cleanup (w : World) {currtime : ℤ} {i : ℕ}
    (hu : ((w.cleanup currtime).slot i).isUsed) :
    ¬w.ct.due currtime (w.slot i) ∧ (w.cleanup currtime).slot i = w.slot i :=
  Calltable.slot_of_used_doCleanup hu

lemma slot_write {i : ℕ} (h : (w.slot i).isUsed) (e : ElementWrite) (j : ℕ) :
    (w.write i e).slot j = if j = i then e.apply (w.slot j) else w.slot j :=
  Calltable.slot_modify_of_used h e.apply j

lemma ct_rtpDump (i : ℕ) (packet : Record) (packetbuffered : Bool) :
    (w.rtpDump i packet packetbuffered).ct =
      if (w.slot i).fPcap = none then w.ct
      else w.ct.modify i (ElementWrite.rtp packet.ts).apply := by
  unfold rtpDump
  rcases (w.slot i).fPcap with _ | f <;> rfl

lemma ct_sipDump (i : ℕ) (packet : Record) (bye packetbuffered : Bool) :
    (w.sipDump i packet bye packetbuffered).ct = w.ct := by
  unfold sipDump
  rcases (w.slot i).fPcap with _ | f <;> rfl

lemma table_fragment (aai : AddrAddrId) (packet : Record) (last packetbuffered : Bool) :
    (w.fragment aai packet last packetbuffered).ct.table = w.ct.table := by
  unfold fragment Calltable.getIpfrag
  rcases w.ct.ipfrags aai with _ | _ | f
  · rfl
  · rfl
  · cases last <;> rfl

end World

lemma Calltable.TableInv.of_table_eq {ct ct' : Calltable} (h : ct.TableInv)
    (htable : ct'.table = ct.table) : ct'.TableInv := by
  have hslot : ∀ i, ct'.slot i = ct.slot i := fun i => by rw [slot, htable]
  refine ⟨fun i hi => ?_, ?_, fun i => ?_⟩
  · rw [hslot] at hi ⊢
    exact h.unusedZero i hi
  · rw [htable]
    exact h.uniqueKeys
  · rw [hslot]
    exact h.flowsDistinct i

lemma Calltable.TableInv.write {ct : Calltable} (h : ct.TableInv) {i : ℕ}
    (hi : (ct.slot i).isUsed) (e : ElementWrite) : (ct.modify i e.apply).TableInv :=
  h.modify hi (fun e' => e.isUsed_apply e') (fun e' => e.key_apply e') fun _ he => he.apply e

/-- Every legal operation keeps the invariant of the table. -/
lemma tableInv_next {op : WorldOp} (hop : (world host libbsd).allowed w op)
    (h : w.ct.TableInv) : ((world host libbsd).next w op).ct.TableInv := by
  cases op with
  | cleanup currtime => exact h.doCleanup currtime
  | findIpPortSsrc addr port ssrc =>
    exact h.next (show Calltable.plain.allowed w.ct (.findIpPortSsrc addr port ssrc) from trivial)
  | rtpDump i packet packetbuffered =>
    simp only [world, World.ct_rtpDump]
    split
    · exact h
    · exact h.write hop _
  | add callId caller callee time => exact h.add hop caller callee time
  | openFile i callId fn dir => exact h.write hop.1 _
  | noFile i => exact h.write hop.1 _
  | bye i => exact h.write hop _
  | sdp i e => exact h.write hop.1 e
  | sipDump i packet bye packetbuffered =>
    simp only [world, World.ct_sipDump]
    exact h
  | addIpfrag aai i => exact h.of_table_eq rfl
  | fragment aai packet last packetbuffered =>
    exact h.of_table_eq (w.table_fragment aai packet last packetbuffered)

/-- No operation changes the settings that are kept in the table. -/
lemma settings_next (op : WorldOp) :
    ((world host libbsd).next w op).ct.optAbsoluteTimeout = w.ct.optAbsoluteTimeout ∧
      ((world host libbsd).next w op).ct.eraseNonT38 = w.ct.eraseNonT38 := by
  cases op with
  | findIpPortSsrc addr port ssrc =>
    rcases w.ct.findIpPortSsrc_cases addr port ssrc with ⟨-, he⟩ | ⟨i, j, -, he⟩ <;>
      (rw [show ((world host libbsd).next w (.findIpPortSsrc addr port ssrc)).ct =
        (w.ct.findIpPortSsrc addr port ssrc).2 from rfl, he]; exact ⟨rfl, rfl⟩)
  | rtpDump i packet b =>
    rw [show ((world host libbsd).next w (.rtpDump i packet b)).ct =
      (w.rtpDump i packet b).ct from rfl, World.ct_rtpDump]
    split <;> exact ⟨rfl, rfl⟩
  | sipDump i packet b c =>
    rw [show ((world host libbsd).next w (.sipDump i packet b c)).ct =
      (w.sipDump i packet b c).ct from rfl, World.ct_sipDump]
    exact ⟨rfl, rfl⟩
  | fragment aai packet last b =>
    simp only [world, World.fragment, Calltable.getIpfrag]
    rcases w.ct.ipfrags aai with _ | _ | f
    · exact ⟨rfl, rfl⟩
    · exact ⟨rfl, rfl⟩
    · cases last <;> exact ⟨rfl, rfl⟩
  | _ => exact ⟨rfl, rfl⟩

/-! ### What an operation can do to an element -/

/-- The element is still the same call, with the same file. -/
structure SameCall (e e' : CalltableElement) : Prop where
  isUsed : e'.isUsed = e.isUsed
  key : e'.key = e.key
  fPcap : e'.fPcap = e.fPcap
  firstPacketTime : e'.firstPacketTime = e.firstPacketTime
  fnPcap : e'.fnPcap = e.fnPcap

lemma SameCall.refl (e : CalltableElement) : SameCall e e := ⟨rfl, rfl, rfl, rfl, rfl⟩

lemma SameCall.trans {e e' e'' : CalltableElement} (h : SameCall e e') (h' : SameCall e' e'') :
    SameCall e e'' :=
  ⟨h'.isUsed.trans h.isUsed, h'.key.trans h.key, h'.fPcap.trans h.fPcap,
    h'.firstPacketTime.trans h.firstPacketTime, h'.fnPcap.trans h.fnPcap⟩

/-- The writes other than that of a file keep the call and its file. -/
lemma SameCall.apply {e : CalltableElement} {ew : ElementWrite}
    (h : ∀ f fnPcap, ew ≠ .file f fnPcap) : SameCall e (ew.apply e) := by
  refine ⟨ew.isUsed_apply e, ew.key_apply e, ?_, ?_, ?_⟩
  · cases ew with
    | file f fnPcap => exact absurd rfl (h f fnPcap)
    | addIpPort addr port =>
      exact e.addIpPort_frame (fun e => e.fPcap) (fun _ _ _ _ => rfl) addr port
    | _ => rfl
  · cases ew with
    | addIpPort addr port =>
      exact e.addIpPort_frame (fun e => e.firstPacketTime) (fun _ _ _ _ => rfl) addr port
    | _ => rfl
  · cases ew with
    | file f fnPcap => exact absurd rfl (h f fnPcap)
    | addIpPort addr port =>
      exact e.addIpPort_frame (fun e => e.fnPcap) (fun _ _ _ _ => rfl) addr port
    | _ => rfl

/-- A write of one element keeps all calls when it keeps the call of that one. -/
lemma sameCall_write {i : ℕ} (hi : (w.slot i).isUsed) {e : ElementWrite}
    (he : SameCall (w.slot i) (e.apply (w.slot i))) (j : ℕ) :
    SameCall (w.slot j) ((w.write i e).slot j) := by
  rw [World.slot_write hi]
  split
  · rename_i hj
    rw [hj]
    exact he
  · exact SameCall.refl _

lemma sameCall_findIpPortSsrc (h : w.ct.UnusedZero) (addr : UInt32) (port : UInt16)
    (ssrc : UInt32) (j : ℕ) :
    SameCall (w.slot j) ((w.findIpPortSsrc addr port ssrc).2.slot j) := by
  rcases w.ct.findIpPortSsrc_cases addr port ssrc with ⟨-, he⟩ | ⟨i, k, hf, he⟩
  · simp only [World.findIpPortSsrc, World.slot, he]
    exact SameCall.refl _
  · have hu : (w.ct.slot i).isUsed := h.used_of_findFlow hf
    simp only [World.findIpPortSsrc, World.slot, he, Calltable.slot_modify_of_used hu]
    split
    · exact ⟨rfl, rfl, rfl, rfl, rfl⟩
    · exact SameCall.refl _

/-- **What an operation can do to an element.**  A legal operation leaves the call in an element
as it is, or it is a pass that zeroes the element, or it makes a new call in the element, or it
opens a file for the call. -/
theorem slot_next {op : WorldOp} (hop : (world host libbsd).allowed w op) (h : w.ct.TableInv)
    (i : ℕ) :
    SameCall (w.slot i) (((world host libbsd).next w op).slot i) ∨
      (∃ currtime, op = .cleanup currtime ∧ w.ct.due currtime (w.slot i) ∧
        ((world host libbsd).next w op).slot i = CalltableElement.zero) ∨
      (∃ callId caller callee time, op = .add callId caller callee time ∧ i = w.ct.addIdx ∧
        ((world host libbsd).next w op).slot i = (w.slot i).init callId caller callee time) ∨
      ∃ callId fn dir, op = .openFile i callId fn dir ∧
        ((world host libbsd).next w op).slot i = ElementWrite.apply
          (.file (host.dumpOpen (w.log ++ (dir.map IoEvent.mkdirP).toList) fn)
            (strlcpy libbsd (w.slot i).fnPcap fn)) (w.slot i) := by
  cases op with
  | cleanup currtime =>
    have hslot := w.ct.slot_doCleanup currtime i
    by_cases hd : w.ct.due currtime (w.ct.slot i)
    · exact Or.inr (Or.inl ⟨currtime, rfl, hd, hslot.trans (if_pos hd)⟩)
    · left
      have hsame : ((world host libbsd).next w (.cleanup currtime)).slot i = w.slot i :=
        hslot.trans (if_neg hd)
      rw [hsame]
      exact SameCall.refl _
  | findIpPortSsrc addr port ssrc =>
    exact Or.inl (sameCall_findIpPortSsrc h.unusedZero addr port ssrc i)
  | rtpDump k packet packetbuffered =>
    left
    simp only [world, World.slot, World.ct_rtpDump]
    split
    · exact SameCall.refl _
    · exact sameCall_write hop (SameCall.apply (by simp)) i
  | add callId caller callee time =>
    have hslot := w.ct.slot_add callId caller callee time i
    by_cases hi : i = w.ct.addIdx
    · exact Or.inr (Or.inr (Or.inl ⟨callId, caller, callee, time, rfl, hi,
        hslot.trans (if_pos hi)⟩))
    · left
      have hsame : ((world host libbsd).next w (.add callId caller callee time)).slot i =
          w.slot i := hslot.trans (if_neg hi)
      rw [hsame]
      exact SameCall.refl _
  | openFile k callId fn dir =>
    have hslot := World.slot_write (w := w) hop.1 (.file
      (host.dumpOpen (w.log ++ (dir.map IoEvent.mkdirP).toList) fn)
      (strlcpy libbsd (w.slot k).fnPcap fn)) i
    by_cases hi : i = k
    · subst hi
      exact Or.inr (Or.inr (Or.inr ⟨callId, fn, dir, rfl, hslot.trans (if_pos rfl)⟩))
    · left
      have hsame : ((world host libbsd).next w (.openFile k callId fn dir)).slot i = w.slot i :=
        hslot.trans (if_neg hi)
      rw [hsame]
      exact SameCall.refl _
  | noFile k =>
    have hnone : SameCall (w.slot k)
        ((ElementWrite.file none (w.slot k).fnPcap).apply (w.slot k)) :=
      ⟨rfl, rfl, hop.2.symm, rfl, rfl⟩
    exact Or.inl (sameCall_write hop.1 hnone i)
  | bye k => exact Or.inl (sameCall_write hop (SameCall.apply (by simp)) i)
  | sdp k e =>
    refine Or.inl (sameCall_write hop.1 (SameCall.apply ?_) i)
    rintro f fnPcap rfl
    exact hop.2
  | sipDump k packet bye packetbuffered =>
    left
    simp only [world, World.slot, World.ct_sipDump]
    exact SameCall.refl _
  | addIpfrag aai k => exact Or.inl (SameCall.refl _)
  | fragment aai packet last packetbuffered =>
    left
    have hsame : ((world host libbsd).next w (.fragment aai packet last packetbuffered)).slot i =
        w.slot i := by
      simp only [world, World.slot, Calltable.slot, World.table_fragment]
    rw [hsame]
    exact SameCall.refl _

/-! ### The operations of a packet -/

/-- The operation belongs to the packet: it is no pass, and it dumps the packet or takes its
time for a new call. -/
def WorldOp.OfPacket (p : Packet) : WorldOp → Prop
  | .cleanup _ => False
  | .rtpDump _ packet _ => packet = p.record
  | .add _ _ _ time => time = p.ts
  | .sipDump _ packet _ _ | .fragment _ packet _ _ => packet.ts = p.ts
  | _ => True

/-- A legal run of operations of the packet leads from one world to the other. -/
abbrev Performs (host : Host) (libbsd : Bool) (p : Packet) : World → World → Prop :=
  (world host libbsd).Reaches fun w op => (world host libbsd).allowed w op ∧ op.OfPacket p

variable {p : Packet}

lemma performs_op (op : WorldOp) (hop : (world host libbsd).allowed w op)
    (hp : op.OfPacket p) : Performs host libbsd p w ((world host libbsd).next w op) :=
  Machine.Reaches.single ⟨hop, hp⟩

lemma Performs.tableInv {w' : World} (h : Performs host libbsd p w w') (hw : w.ct.TableInv) :
    w'.ct.TableInv := by
  refine Machine.Reaches.invariant (P := fun v : World => v.ct.TableInv) ?_ h hw
  exact fun v op hop hv => tableInv_next hop.1 hv

/-- No operation of a packet frees an element. -/
lemma Performs.used {w' : World} (h : Performs host libbsd p w w') (hw : w.ct.TableInv) {i : ℕ}
    (hi : (w.slot i).isUsed) : (w'.slot i).isUsed := by
  refine (Machine.Reaches.invariant (P := fun v : World => v.ct.TableInv ∧ (v.slot i).isUsed)
    ?_ h ⟨hw, hi⟩).2
  rintro v op ⟨hop, hp⟩ ⟨hv, hu⟩
  refine ⟨tableInv_next hop hv, ?_⟩
  rcases slot_next hop hv i with hs | ⟨T, rfl, -⟩ | ⟨_, _, _, _, -, -, hs⟩ | ⟨_, _, _, -, hs⟩
  · rw [hs.isUsed, hu]
  · exact hp.elim
  · rw [hs]
    rfl
  · rw [hs, ElementWrite.isUsed_apply, hu]

lemma World.findIpPortSsrc_cases (w : World) (addr : UInt32) (port : UInt16) (ssrc : UInt32) :
    (w.ct.findFlow addr port ssrc = none ∧ w.findIpPortSsrc addr port ssrc = (none, w)) ∨
      ∃ f, w.ct.findFlow addr port ssrc = some f ∧
        (w.findIpPortSsrc addr port ssrc).1 = some f := by
  rcases w.ct.findIpPortSsrc_cases addr port ssrc with ⟨hn, he⟩ | ⟨i, j, hf, he⟩
  · exact Or.inl ⟨hn, by rw [World.findIpPortSsrc, he]⟩
  · exact Or.inr ⟨(i, j), hf, by rw [World.findIpPortSsrc, he]⟩

/-- The masked address and port that the first lookup is made with. -/
def dstPair (o : Options) (m : Bytes) (ip : ℕ) : UInt32 × UInt16 :=
  (hdaddr m ip, destPort m ip &&& o.optRtpsave.portMask)

/-- The masked address and port that the second lookup is made with. -/
def srcPair (o : Options) (m : Bytes) (ip : ℕ) : UInt32 × UInt16 :=
  (hsaddr m ip, sourcePort m ip &&& o.optRtpsave.portMask)

/-- The flow that the lookups find: that of the destination, or else that of the source. -/
lemma rtpLookup_fst (hsave : o.optRtpsave ≠ .none) (m : Bytes) (ip : ℕ) (w : World) :
    (rtpLookup o m ip w).1 =
      (w.ct.findFlow (dstPair o m ip).1 (dstPair o m ip).2 (packetSsrc o m ip)).or
        (w.ct.findFlow (srcPair o m ip).1 (srcPair o m ip).2 (packetSsrc o m ip)) := by
  have hfst : ∀ addr port ssrc, (w.findIpPortSsrc addr port ssrc).1 =
      w.ct.findFlow addr port ssrc := by
    intro addr port ssrc
    rcases w.findIpPortSsrc_cases addr port ssrc with ⟨hn, he⟩ | ⟨g, hg, he⟩
    · rw [he, hn]
    · rw [he, hg]
  unfold rtpLookup
  rw [if_neg hsave]
  rcases w.findIpPortSsrc_cases (hdaddr m ip) (destPort m ip &&& o.optRtpsave.portMask)
    (packetSsrc o m ip) with ⟨hn, he⟩ | ⟨g, hg, he⟩
  · -- nothing has the destination, and the first lookup has changed nothing
    rw [dstPair, hn, Option.none_or, he]
    exact hfst _ _ _
  · rw [dstPair, hg, Option.some_or,
      show w.findIpPortSsrc (hdaddr m ip) (destPort m ip &&& o.optRtpsave.portMask)
        (packetSsrc o m ip) = (some g, (w.findIpPortSsrc (hdaddr m ip)
          (destPort m ip &&& o.optRtpsave.portMask) (packetSsrc o m ip)).2) from Prod.ext he rfl]

/-- **What the lookups of a packet can do.**  Nothing, or they find a flow with the packet's
destination or source and record its SSRC. -/
lemma rtpLookup_cases (o : Options) (m : Bytes) (ip : ℕ) (w : World) :
    rtpLookup o m ip w = (none, w) ∨
      ∃ f addr port, ((addr, port) = dstPair o m ip ∨ (addr, port) = srcPair o m ip) ∧
        w.ct.findFlow addr port (packetSsrc o m ip) = some f ∧
        rtpLookup o m ip w = (some f, (w.findIpPortSsrc addr port (packetSsrc o m ip)).2) := by
  unfold rtpLookup
  by_cases hnone : o.optRtpsave = .none
  · exact Or.inl (if_pos hnone)
  simp only [if_neg hnone]
  rcases w.findIpPortSsrc_cases (hdaddr m ip) (destPort m ip &&& o.optRtpsave.portMask)
    (packetSsrc o m ip) with ⟨-, hd⟩ | ⟨f, hf, hd⟩
  · rw [hd]
    rcases w.findIpPortSsrc_cases (hsaddr m ip) (sourcePort m ip &&& o.optRtpsave.portMask)
      (packetSsrc o m ip) with ⟨-, hs⟩ | ⟨f, hf, hs⟩
    · exact Or.inl hs
    · exact Or.inr ⟨f, _, _, Or.inr rfl, hf, Prod.ext hs rfl⟩
  · refine Or.inr ⟨f, _, _, Or.inl rfl, hf, ?_⟩
    rw [show w.findIpPortSsrc (hdaddr m ip) (destPort m ip &&& o.optRtpsave.portMask)
      (packetSsrc o m ip) = (some f, (w.findIpPortSsrc (hdaddr m ip)
        (destPort m ip &&& o.optRtpsave.portMask) (packetSsrc o m ip)).2) from Prod.ext hd rfl]

/-- The lookups of a packet, and the flow that they have found. -/
lemma performs_rtpLookup (hw : w.ct.TableInv) (m : Bytes) (ip : ℕ) :
    Performs host libbsd p w (rtpLookup o m ip w).2 ∧
      ∀ f, (rtpLookup o m ip w).1 = some f → ((rtpLookup o m ip w).2.slot f.1).isUsed := by
  rcases rtpLookup_cases o m ip w with he | ⟨f, addr, port, -, hf, he⟩
  · rw [he]
    exact ⟨Machine.Reaches.refl w, by simp⟩
  · rw [he]
    have hfind : Performs host libbsd p w (w.findIpPortSsrc addr port (packetSsrc o m ip)).2 :=
      performs_op (.findIpPortSsrc addr port (packetSsrc o m ip)) trivial trivial
    refine ⟨hfind, ?_⟩
    rintro f' ⟨⟩
    exact hfind.used hw (hw.unusedZero.used_of_findFlow hf)

lemma performs_rtpBranch {ip : ℕ} {f : Flow} (hu : (w.slot f.1).isUsed) :
    Performs host libbsd p w (rtpBranch o p ip f w) := by
  unfold rtpBranch
  split
  · exact performs_op (.rtpDump f.1 p.record o.optPacketbuffered) hu rfl
  · exact Machine.Reaches.refl w

lemma parseSdp_isSdp {verbosity : ℤ} {optT38only : Bool} {sdp : Bytes} {sdplen : ℕ} :
    ∀ e ∈ parseSdp verbosity optT38only sdp sdplen, e.IsSdp := by
  have hrest : ∀ e ∈ (if sdpGetRtpmapEvent sdp = 0 then []
        else [ElementWrite.rtpmapEvent (sdpGetRtpmapEvent sdp)]) ++
      (if optT38only ∧ (memmem (sdp.take sdplen) (ascii "udptl t38")).isSome then
        [ElementWrite.hadT38] else []), e.IsSdp := by
    intro e he
    rw [List.mem_append] at he
    rcases he with he | he
    · split at he
      · simp at he
      · obtain rfl := List.mem_singleton.mp he
        trivial
    · split at he
      · obtain rfl := List.mem_singleton.mp he
        trivial
      · simp at he
  intro e he
  unfold parseSdp at he
  rcases hg : getIpPortFromSdp sdp sdplen with _ | ⟨addr, port⟩
  · simp only [hg] at he
    split at he
    · simp at he
    · exact hrest e he
  · simp only [hg] at he
    rcases List.mem_cons.mp he with rfl | he
    · trivial
    · exact hrest e he

/-- The body of a message leads to no assignment but those of `parse_sdp`. -/
lemma parseBody_isSdp {verbosity : ℤ} {optT38only : Bool} {data : Bytes} {len : ℕ} :
    ∀ e ∈ parseBody verbosity optT38only data len, e.IsSdp := by
  intro e he
  unfold parseBody at he
  split at he
  · simp only at he
    split at he
    · exact parseSdp_isSdp e he
    · simp at he
  · simp at he

lemma performs_body {es : List ElementWrite} (hes : ∀ e ∈ es, e.IsSdp) {i : ℕ}
    (hw : w.ct.TableInv) (hi : (w.slot i).isUsed) :
    Performs host libbsd p w (es.foldl (fun w e => w.write i e) w) := by
  induction es generalizing w with
  | nil => exact Machine.Reaches.refl w
  | cons e es ih =>
    have hop : (world host libbsd).allowed w (.sdp i e) := ⟨hi, hes e (by simp)⟩
    have hstep : Performs host libbsd p w (w.write i e) := performs_op (.sdp i e) hop trivial
    -- the element is still in use for the assignments that follow
    refine hstep.trans (ih (fun e' he' => hes e' (by simp [he'])) ?_ ?_)
    · exact hstep.tableInv hw
    · exact hstep.used hw hi

/-- **What a new call is given.**  No file, if its method does not match or it is skipped, and
otherwise the file of its message. -/
lemma newCall_cases (o : Options) (host : Host) (msg : SipMessage) (callId : Bytes) (ts : ℤ)
    (i : ℕ) (s : State) :
    (¬o.methodFilter msg.method ∧
        newCall o host msg callId ts i s = { s with world := s.world.noFile i }) ∨
      (o.methodFilter msg.method ∧ s.callSkipCnt - 1 > 0 ∧
        newCall o host msg callId ts i s =
          { s with world := s.world.noFile i, callSkipCnt := s.callSkipCnt - 1 }) ∨
      (o.methodFilter msg.method ∧ s.callSkipCnt - 1 ≤ 0 ∧
        newCall o host msg callId ts i s = { s with
          world := s.world.openFile host o.libbsd i callId (fileName o host msg ts)
            (if 47 ∈ fileName o host msg ts then some (dirname (fileName o host msg ts)) else none)
          callSkipCnt := o.optCallSkipN }) := by
  rw [newCall]
  by_cases hmethod : o.methodFilter msg.method
  · rw [if_pos hmethod]
    by_cases hskip : s.callSkipCnt - 1 > 0
    · exact Or.inr (Or.inl ⟨hmethod, hskip, if_pos hskip⟩)
    · exact Or.inr (Or.inr ⟨hmethod, not_lt.mp hskip, if_neg hskip⟩)
  · exact Or.inl ⟨hmethod, if_neg hmethod⟩

lemma performs_newCall {msg : SipMessage} {callId : Bytes} {ts : ℤ} {i : ℕ} {s : State}
    (hu : (s.world.slot i).isUsed) (hnone : (s.world.slot i).fPcap = none)
    (hkey : (s.world.slot i).key = keyOf callId) :
    Performs host o.libbsd p s.world (newCall o host msg callId ts i s).world := by
  rcases newCall_cases o host msg callId ts i s with
    ⟨-, he⟩ | ⟨-, -, he⟩ | ⟨-, -, he⟩ <;> rw [he]
  · exact performs_op (.noFile i) ⟨hu, hnone⟩ trivial
  · exact performs_op (.noFile i) ⟨hu, hnone⟩ trivial
  · exact performs_op (.openFile i callId _ _) ⟨hu, hnone, hkey⟩ trivial

lemma findOrAdd_found {msg : SipMessage} {callId : Bytes} (hid : msg.callId = some callId)
    {s : State} {i : ℕ} (hf : s.world.ct.findByCallId callId = some i) (o : Options) (host : Host)
    (ts : ℤ) : findOrAdd o host msg ts s = (some i, s) := by
  simp only [findOrAdd, hid, hf]

lemma findOrAdd_added {msg : SipMessage} {callId : Bytes} (hid : msg.callId = some callId)
    {s : State} (hf : s.world.ct.findByCallId callId = none) (hn : numberFilterMatched o msg)
    (host : Host) (ts : ℤ) :
    findOrAdd o host msg ts s = (some s.world.ct.addIdx,
      newCall o host msg callId ts s.world.ct.addIdx { s with
        world := (s.world.add callId msg.caller.toBytes msg.called.toBytes ts).2 }) := by
  simp only [findOrAdd, hid, hf, if_pos hn]
  rfl

lemma findOrAdd_refused {msg : SipMessage} {callId : Bytes} (hid : msg.callId = some callId)
    {s : State} (hf : s.world.ct.findByCallId callId = none) (hn : ¬numberFilterMatched o msg)
    (host : Host) (ts : ℤ) : findOrAdd o host msg ts s = (none, s) := by
  simp only [findOrAdd, hid, hf, if_neg hn]

/-- **What finding or adding a message's call can do.**  Nothing, when the call is found or not
wanted; or it adds the call and gives it a file or none. -/
lemma findOrAdd_cases (o : Options) (host : Host) (msg : SipMessage) (ts : ℤ) (s : State) :
    (findOrAdd o host msg ts s = (none, s)) ∨
      ∃ callId, msg.callId = some callId ∧
        ((∃ i, s.world.ct.findByCallId callId = some i ∧
            findOrAdd o host msg ts s = (some i, s)) ∨
          (s.world.ct.findByCallId callId = none ∧
            findOrAdd o host msg ts s = (some s.world.ct.addIdx,
              newCall o host msg callId ts s.world.ct.addIdx
                { s with world := (s.world.add callId msg.caller.toBytes msg.called.toBytes
                    ts).2 }))) := by
  rcases hid : msg.callId with _ | callId
  · exact Or.inl (by simp only [findOrAdd, hid])
  · rcases hf : s.world.ct.findByCallId callId with _ | i
    · by_cases hn : numberFilterMatched o msg
      · exact Or.inr ⟨callId, rfl, Or.inr ⟨hf, findOrAdd_added hid hf hn host ts⟩⟩
      · exact Or.inl (findOrAdd_refused hid hf hn host ts)
    · exact Or.inr ⟨callId, rfl, Or.inl ⟨i, hf, findOrAdd_found hid hf o host ts⟩⟩

/-- The element that has just been added: it is the call's, without a file yet. -/
lemma World.slot_added (w : World) (callId caller callee : Bytes) (time : ℤ) :
    ((w.add callId caller callee time).2.slot w.ct.addIdx).isUsed ∧
      ((w.add callId caller callee time).2.slot w.ct.addIdx).fPcap = none ∧
      ((w.add callId caller callee time).2.slot w.ct.addIdx).key = keyOf callId := by
  have hslot := w.ct.slot_add callId caller callee time w.ct.addIdx
  rw [if_pos rfl] at hslot
  simp only [World.slot, World.add, hslot]
  exact ⟨rfl, rfl, CalltableElement.key_init _ _ _ _ _⟩

/-- Finding or adding a call is a legal run of operations, and the element is then in use. -/
lemma performs_findOrAdd {msg : SipMessage} {s : State} (hw : s.world.ct.TableInv) :
    Performs host o.libbsd p s.world (findOrAdd o host msg p.ts s).2.world ∧
      ∀ i, (findOrAdd o host msg p.ts s).1 = some i →
        ((findOrAdd o host msg p.ts s).2.world.slot i).isUsed := by
  rcases findOrAdd_cases o host msg p.ts s with
    he | ⟨callId, -, ⟨i, hf, he⟩ | ⟨hf, he⟩⟩
  · rw [he]
    exact ⟨Machine.Reaches.refl _, by simp⟩
  · rw [he]
    refine ⟨Machine.Reaches.refl _, ?_⟩
    rintro i' ⟨⟩
    exact (hw.findByCallId_eq_some_iff.mp hf).1
  · rw [he]
    have hadd : Performs host o.libbsd p s.world
        (s.world.add callId msg.caller.toBytes msg.called.toBytes p.ts).2 :=
      performs_op (.add callId msg.caller.toBytes msg.called.toBytes p.ts) hf rfl
    obtain ⟨hu, hnone, hkey⟩ :=
      s.world.slot_added callId msg.caller.toBytes msg.called.toBytes p.ts
    have hnew : Performs host o.libbsd p
        (s.world.add callId msg.caller.toBytes msg.called.toBytes p.ts).2
        (newCall o host msg callId p.ts s.world.ct.addIdx { s with
          world := (s.world.add callId msg.caller.toBytes msg.called.toBytes p.ts).2 }).world :=
      performs_newCall (s := { s with world := (s.world.add callId msg.caller.toBytes
        msg.called.toBytes p.ts).2 }) hu hnone hkey
    refine ⟨hadd.trans hnew, ?_⟩
    rintro i ⟨⟩
    exact hnew.used (hadd.tableInv hw) hu

lemma performs_sipCall {q : Packet} (hq : q.ts = p.ts) {ip i : ℕ} {msg : SipMessage}
    (hbody : ∀ e ∈ msg.body, e.IsSdp) (hw : w.ct.TableInv) (hi : (w.slot i).isUsed) :
    Performs host libbsd p w (sipCall o q ip i msg w) := by
  unfold sipCall
  have hbye : Performs host libbsd p w (if msg.isBye then w.write i .bye else w) := by
    split
    · exact performs_op (.bye i) hi trivial
    · exact Machine.Reaches.refl w
  have hsdp : Performs host libbsd p w (msg.body.foldl (fun w e => w.write i e)
      (if msg.isBye then w.write i .bye else w)) :=
    hbye.trans (performs_body hbody (hbye.tableInv hw) (hbye.used hw hi))
  have hdump : Performs host libbsd p w ((msg.body.foldl (fun w e => w.write i e)
      (if msg.isBye then w.write i .bye else w)).sipDump i q.record msg.isBye
        o.optPacketbuffered) :=
    hsdp.trans (performs_op (.sipDump i q.record msg.isBye o.optPacketbuffered)
      (hsdp.used hw hi) hq)
  have hfrag : ∀ {v : World} (c : Bool) (aai : AddrAddrId), Performs host libbsd p w v →
      Performs host libbsd p w (if c then v.addIpfrag aai i else v) := by
    intro v c aai hv
    split
    · exact hv.trans (performs_op (.addIpfrag aai i) (hv.used hw hi) trivial)
    · exact hv
  exact hfrag _ _ (hfrag _ _ hdump)

lemma performs_sipBranch {q : Packet} (hq : q.ts = p.ts) {ip data : ℕ} {method : Bytes}
    {s : State} (hw : s.world.ct.TableInv) :
    Performs host o.libbsd p s.world (sipBranch o host q ip data method s).world := by
  have hfind : Performs host o.libbsd p s.world
      (findOrAdd o host (readSip o q data method) q.ts s).2.world ∧
      ∀ i, (findOrAdd o host (readSip o q data method) q.ts s).1 = some i →
        ((findOrAdd o host (readSip o q data method) q.ts s).2.world.slot i).isUsed := by
    rw [hq]
    exact performs_findOrAdd hw
  rcases heq : findOrAdd o host (readSip o q data method) q.ts s with ⟨_ | i, s'⟩
  · rw [heq] at hfind
    simp only [sipBranch, heq]
    exact hfind.1
  · rw [heq] at hfind
    simp only [sipBranch, heq]
    exact hfind.1.trans (performs_sipCall hq parseBody_isSdp (hfind.1.tableInv hw)
      (hfind.2 i rfl))

lemma performs_admitted {ip : ℕ} {s : State} (hw : s.world.ct.TableInv) :
    Performs host o.libbsd p s.world (admitted o host p ip s).world := by
  have hlookup : Performs host o.libbsd p s.world (rtpLookup o p.mem ip s.world).2 ∧
      ∀ f, (rtpLookup o p.mem ip s.world).1 = some f →
        ((rtpLookup o p.mem ip s.world).2.slot f.1).isUsed :=
    performs_rtpLookup hw p.mem ip
  rcases heq : rtpLookup o p.mem ip s.world with ⟨_ | f, w⟩
  · rw [heq] at hlookup
    simp only [admitted, heq]
    rcases sipMethod (p.mem.drop (dataPos p.mem ip)) with _ | method
    · exact hlookup.1
    · exact hlookup.1.trans (performs_sipBranch (p := p) (q := p.terminate)
        (s := { s with world := w }) rfl (hlookup.1.tableInv hw))
  · rw [heq] at hlookup
    simp only [admitted, heq]
    exact hlookup.1.trans (performs_rtpBranch (hlookup.2 f rfl))

/-- **A packet is a legal run of operations.**  After its cleanup pass a packet makes the
capture loop perform operations of that packet only. -/
theorem performs_dispatch (p : Packet) {s : State} (hw : s.world.ct.TableInv) :
    Performs host o.libbsd p s.world (dispatch o host p s).world := by
  unfold dispatch
  split
  · exact Machine.Reaches.refl _
  · rename_i ip heq
    split
    · exact performs_op (.fragment (addrAddrId4 p.mem ip) p.record
        (isLastFragment4 p.mem ip) o.optPacketbuffered) trivial rfl
    · split
      · exact performs_op (.fragment (addrAddrId6 p.mem ip) p.record
          (isLastFragment6 p.mem ip) o.optPacketbuffered) trivial rfl
      · split
        · exact performs_admitted hw
        · exact Machine.Reaches.refl _

/-! ### Invariants of the capture loop -/

lemma afterPass_world (s : State) (a : Input) :
    (afterPass s a).world =
      match passTime s a with
      | none => s.world
      | some currtime => s.world.cleanup currtime := by
  cases a with
  | packet p =>
    simp only [afterPass, passTime, State.periodicCleanup]
    split <;> rfl
  | cleanup currtime => rfl

/-- A property of the world that the pass of an input preserves holds after the pass. -/
lemma afterPass_invariant {P : World → Prop} {s : State} {a : Input} (hs : P s.world)
    (hpass : ∀ currtime, passTime s a = some currtime → P (s.world.cleanup currtime)) :
    P (afterPass s a).world := by
  rw [afterPass_world]
  rcases h : passTime s a with _ | currtime
  · exact hs
  · exact hpass currtime h

/-- A property of the world that the operations of a packet preserve is preserved by the packet. -/
theorem dispatch_invariant {P : World → Prop} (hinv : ∀ w, P w → w.ct.TableInv) {p : Packet}
    (hstep : ∀ w op, (world host o.libbsd).allowed w op → op.OfPacket p → P w →
      P ((world host o.libbsd).next w op))
    {s : State} (h : P s.world) : P (dispatch o host p s).world := by
  have hperforms : Performs host o.libbsd p s.world (dispatch o host p s).world :=
    performs_dispatch p (hinv _ h)
  exact Machine.Reaches.invariant (fun w op hop hw => hstep w op hop.1 hop.2 hw) hperforms h

/-- A property of the world that the operations of packets preserve is preserved from the
cleanup pass of an input to the next input. -/
theorem next_invariant {P : World → Prop} (hinv : ∀ w, P w → w.ct.TableInv)
    (hstep : ∀ w op p, (world host o.libbsd).allowed w op → op.OfPacket p → P w →
      P ((world host o.libbsd).next w op))
    {s : State} {a : Input} (h : P (afterPass s a).world) : P ((loop o host).next s a).world := by
  cases a with
  | packet p => exact dispatch_invariant hinv (fun w op => hstep w op p) h
  | cleanup currtime => exact h

/-- The capture loop takes every input. -/
lemma legal_loop (o : Options) (host : Host) (s : State) (inputs : List Input) :
    (loop o host).Legal s inputs :=
  (loop o host).legal_of_forall (fun _ _ => trivial) s inputs

lemma tableInv_start (o : Options) : o.start.world.ct.TableInv := Calltable.tableInv_create _ _

end PcapSipDump
