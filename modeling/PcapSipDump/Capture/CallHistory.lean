import PcapSipDump.Capture.Archive

/-!
# Elements and the histories of their calls

An element of the table describes a call of the archive: each field that the capture loop keeps is
the view of that name of the history of the call (`Describes`).  The assignments of a message and of
a media packet keep this while the call hears the message or receives the packet
(`Describes.hear`, `Describes.receive`), and an element that is taken for a new call describes a
fresh one (`describes_fresh`).
-/

namespace PcapSipDump

open Lib Lib.CString Calltable

/-- The pairs registered in an element, in the order of their places. -/
def CalltableElement.pairs (e : CalltableElement) : List IpPort :=
  ((List.finRange maxIpPerCall).map fun j => (e.ip j, e.port j)).take e.ipN

/-- The element holds what the messages and the media of the call have left in it. -/
structure Describes (e : CalltableElement) (c : Call) : Prop where
  hadBye : e.hadBye = c.finished
  hadT38 : e.hadT38 = c.fax
  rtpmapEvent : e.rtpmapEvent = c.eventType
  pairs : e.pairs = c.flows
  ssrc : ∀ j, e.ssrc j = if j.val < e.ipN then c.lastSsrc (e.ip j, e.port j) else 0
  packets : e.packets = UInt64.ofNat c.saved.length
  firstPacketTime : e.firstPacketTime = c.since
  lastPacketTime : e.lastPacketTime = c.lastTime
  fPcap : e.fPcap = c.file

variable {o : Options} {e : CalltableElement} {c : Call} {msg : SipMessage}

/-! ### The registered pairs -/

lemma CalltableElement.mem_pairs {q : IpPort} :
    q ∈ e.pairs ↔ ∃ j : Fin maxIpPerCall, j.val < e.ipN ∧ (e.ip j, e.port j) = q := by
  rw [pairs, List.mem_take_iff_getElem]
  constructor
  · rintro ⟨n, hn, rfl⟩
    have hlt : n < maxIpPerCall := by
      have := lt_of_lt_of_le hn (Nat.min_le_right _ _)
      simpa using this
    exact ⟨⟨n, hlt⟩, lt_of_lt_of_le hn (Nat.min_le_left _ _), by simp⟩
  · rintro ⟨j, hj, rfl⟩
    exact ⟨j.val, lt_min hj (by simp), by simp⟩

lemma CalltableElement.length_pairs (h : e.ipN ≤ maxIpPerCall) : e.pairs.length = e.ipN := by
  simp [pairs, h]

lemma CalltableElement.tracks_iff {addr : UInt32} {port : UInt16} :
    e.tracks addr port ↔ (addr, port) ∈ e.pairs := by
  rw [tracks_eq_true, mem_pairs]
  simp only [Prod.mk.injEq]

lemma CalltableElement.getElem?_pairs (e : CalltableElement) (j : Fin maxIpPerCall) :
    e.pairs[j.val]? = if j.val < e.ipN then some (e.ip j, e.port j) else none := by
  simp [pairs, List.getElem?_take]

/-- **`add_ip_port` registers a pair.** -/
lemma CalltableElement.pairs_addIpPort (h : e.ipN ≤ maxIpPerCall) (addr : UInt32) (port : UInt16) :
    (e.addIpPort addr port).pairs = register maxIpPerCall e.pairs (addr, port) := by
  rw [register, length_pairs h]
  by_cases ht : e.tracks addr port
  · have hkept : e.addIpPort addr port = e := by
      rcases e.addIpPort_eq_or addr port with he | ⟨-, hnew, -⟩
      · exact he
      · exact absurd ht (by rw [hnew]; decide)
    rw [if_pos (Or.inl (tracks_iff.mp ht)), hkept]
  by_cases hlt : e.ipN < maxIpPerCall
  · rw [if_neg (not_or.mpr ⟨fun hq => ht (tracks_iff.mpr hq), not_le.mpr hlt⟩), addIpPort,
      dif_pos hlt, if_neg ht]
    refine List.ext_getElem (by simp [pairs, h, Nat.succ_le_of_lt hlt]) fun n hn _ => ?_
    have hlt' : n < e.ipN + 1 := by
      rw [pairs, List.length_take] at hn
      exact lt_of_lt_of_le hn (Nat.min_le_left _ _)
    rcases Nat.lt_succ_iff_lt_or_eq.mp hlt' with hn' | rfl
    · -- the places taken before
      rw [List.getElem_append_left (by rwa [length_pairs h])]
      have hne : (⟨n, hn'.trans hlt⟩ : Fin maxIpPerCall) ≠ ⟨e.ipN, hlt⟩ :=
        fun heq => hn'.ne (Fin.mk.inj heq)
      simp only [pairs, List.getElem_take, List.getElem_map, List.getElem_finRange, Fin.cast_mk]
      rw [Function.update_of_ne hne, Function.update_of_ne hne]
    · rw [List.getElem_append_right (by rw [length_pairs h])]
      simp [pairs]
  · rw [if_pos (Or.inr (not_lt.mp hlt)), addIpPort, dif_neg hlt]

/-! ### Hearing a message -/

/-- An assignment of the SIP branch and what it announces. -/
lemma ElementWrite.IsSip.cases {w : ElementWrite} (h : w.IsSip) :
    w = .bye ∨ (∃ pt, w = .rtpmapEvent pt) ∨ w = .hadT38 ∨
      ∃ addr port, w = .addIpPort addr port := by
  rcases h with rfl | h
  · exact Or.inl rfl
  · cases w with
    | rtpmapEvent pt => exact Or.inr (Or.inl ⟨pt, rfl⟩)
    | hadT38 => exact Or.inr (Or.inr (Or.inl rfl))
    | addIpPort addr port => exact Or.inr (Or.inr (Or.inr ⟨addr, port, rfl⟩))
    | _ => exact h.elim

/-- What the assignments `ws` have announced. -/
structure Told (ws : List ElementWrite) (e : CalltableElement) : Prop where
  distinct : FlowsDistinct e
  hadT38 : e.hadT38 = ws.any ElementWrite.isT38
  rtpmapEvent : e.rtpmapEvent = (ws.filterMap ElementWrite.event).getLastD 101
  pairs : e.pairs = firstDistinct maxIpPerCall (ws.filterMap ElementWrite.flow)

/-- An assignment that registers no flow. -/
lemma Told.of_flow_none {ws : List ElementWrite} (h : Told ws e) {w : ElementWrite}
    (hflow : w.flow = none) (hpairs : (w.apply e).pairs = e.pairs)
    (hdist : FlowsDistinct (w.apply e))
    (hfax : (w.apply e).hadT38 = (e.hadT38 || w.isT38))
    (hevent : (w.apply e).rtpmapEvent = w.event.getD e.rtpmapEvent) :
    Told (ws ++ [w]) (w.apply e) := by
  refine ⟨hdist, ?_, ?_, ?_⟩
  · rw [hfax, h.hadT38, List.any_append, List.any_cons, List.any_nil, Bool.or_false]
  · rw [hevent, h.rtpmapEvent, List.filterMap_append]
    rcases hw : w.event with _ | pt
    · rw [List.filterMap_cons_none hw, List.filterMap_nil, List.append_nil, Option.getD_none]
    · rw [List.filterMap_cons_some hw, List.filterMap_nil, Option.getD_some, List.getLastD_concat]
  · rw [hpairs, h.pairs, List.filterMap_append, List.filterMap_cons_none hflow, List.filterMap_nil,
      List.append_nil]

lemma Told.apply {ws : List ElementWrite} (h : Told ws e) {w : ElementWrite} (hw : w.IsSip) :
    Told (ws ++ [w]) (w.apply e) := by
  have hdistinct := h.distinct.apply w
  rcases hw.cases with rfl | ⟨pt, rfl⟩ | rfl | ⟨addr, port, rfl⟩
  · exact h.of_flow_none rfl rfl hdistinct (Bool.or_false _).symm rfl
  · exact h.of_flow_none rfl rfl hdistinct (Bool.or_false _).symm rfl
  · exact h.of_flow_none rfl rfl hdistinct (Bool.or_true _).symm rfl
  · have happly : (ElementWrite.addIpPort addr port).apply e = e.addIpPort addr port := rfl
    refine ⟨hdistinct, ?_, ?_, ?_⟩
    · rw [happly, e.addIpPort_frame (fun e => e.hadT38) (fun _ _ _ _ => rfl), h.hadT38,
        List.any_append]
      exact (Bool.or_false _).symm
    · rw [happly, e.addIpPort_frame (fun e => e.rtpmapEvent) (fun _ _ _ _ => rfl), h.rtpmapEvent,
        List.filterMap_append]
      exact congrArg (List.getLastD · 101) (List.append_nil _).symm
    · rw [happly, CalltableElement.pairs_addIpPort h.distinct.ipN_le, h.pairs,
        List.filterMap_append, ← firstDistinct_concat]
      rfl

lemma Told.foldl {ws : List ElementWrite} (h : Told ws e) {es : List ElementWrite}
    (hes : ∀ w ∈ es, w.IsSip) : Told (ws ++ es) (es.foldl (fun e w => w.apply e) e) := by
  induction es generalizing ws e with
  | nil => simpa using h
  | cons w es ih =>
    have hw := ih (h.apply (hes w List.mem_cons_self)) fun w' hw' =>
      hes w' (List.mem_cons_of_mem _ hw')
    simpa using hw

/-- The assignments of a message set `had_bye` for a BYE. -/
lemma hadBye_foldl_writes (hbody : ∀ w ∈ msg.body, w.IsSdp) (e : CalltableElement) :
    (msg.writes.foldl (fun e w => w.apply e) e).hadBye = (e.hadBye || msg.isBye) := by
  have hkept : ∀ e : CalltableElement,
      (msg.body.foldl (fun e w => w.apply e) e).hadBye = e.hadBye := by
    intro e
    refine foldl_apply_invariant (P := fun e' => e'.hadBye = e.hadBye) (fun w hw e' he' => ?_) rfl
    have hsdp := hbody w hw
    cases w with
    | addIpPort addr port =>
      exact (e'.addIpPort_frame (fun e => e.hadBye) (fun _ _ _ _ => rfl) addr port).trans he'
    | rtpmapEvent pt => exact he'
    | hadT38 => exact he'
    | _ => exact hsdp.elim
  rw [SipMessage.writes, List.foldl_append, hkept]
  by_cases hbye : msg.isBye
  · rw [if_pos hbye, hbye, Bool.or_true]
    rfl
  · have hno : msg.isBye = false := by simpa using hbye
    rw [if_neg hbye, hno, Bool.or_false]
    rfl

/-- What the assignments of the SIP branch leave alone. -/
structure SameMedia (e e' : CalltableElement) : Prop where
  ssrc : e'.ssrc = e.ssrc
  packets : e'.packets = e.packets
  firstPacketTime : e'.firstPacketTime = e.firstPacketTime
  lastPacketTime : e'.lastPacketTime = e.lastPacketTime
  fPcap : e'.fPcap = e.fPcap

lemma SameMedia.foldl {es : List ElementWrite} (hes : ∀ w ∈ es, w.IsSip) (e : CalltableElement) :
    SameMedia e (es.foldl (fun e w => w.apply e) e) := by
  refine foldl_apply_invariant (P := SameMedia e) (fun w hw e' he' => ?_) ⟨rfl, rfl, rfl, rfl, rfl⟩
  rcases (hes w hw).cases with rfl | ⟨pt, rfl⟩ | rfl | ⟨addr, port, rfl⟩
  · exact ⟨he'.ssrc, he'.packets, he'.firstPacketTime, he'.lastPacketTime, he'.fPcap⟩
  · exact ⟨he'.ssrc, he'.packets, he'.firstPacketTime, he'.lastPacketTime, he'.fPcap⟩
  · exact ⟨he'.ssrc, he'.packets, he'.firstPacketTime, he'.lastPacketTime, he'.fPcap⟩
  · have hadd : (ElementWrite.addIpPort addr port).apply e' = e'.addIpPort addr port := rfl
    rcases e'.addIpPort_eq_or addr port with h | ⟨_, _, h⟩
    · rw [hadd, h]
      exact he'
    · rw [hadd, h]
      exact ⟨he'.ssrc, he'.packets, he'.firstPacketTime, he'.lastPacketTime, he'.fPcap⟩

/-- No packet of a flow that has not been announced has been attributed to the call. -/
lemma Call.lastSsrc_of_not_mem {q : IpPort} (h : q ∉ c.flows) : c.lastSsrc q = 0 := by
  have hnone : (c.media.filter fun m => m.flow = q) = [] := by
    rw [List.filter_eq_nil_iff]
    intro m hm hq
    exact h (of_decide_eq_true hq ▸ c.announced m hm)
  rw [Call.lastSsrc, hnone]
  rfl

/-- **A message is heard.** -/
theorem Describes.hear (h : Describes e c) (hd : FlowsDistinct e)
    (hbody : ∀ w ∈ msg.body, w.IsSdp) :
    Describes (msg.writes.foldl (fun e w => w.apply e) e) (c.hear msg) := by
  have hsip := SipMessage.isSip_writes hbody
  have hwrites : (c.hear msg).writes = c.writes ++ msg.writes := by
    simp [Call.writes, Call.hear]
  have htold : Told (c.writes ++ msg.writes) (msg.writes.foldl (fun e w => w.apply e) e) :=
    Told.foldl ⟨hd, h.hadT38, h.rtpmapEvent, h.pairs⟩ hsip
  have hsame := SameMedia.foldl hsip e
  have hbye := hadBye_foldl_writes hbody e
  obtain ⟨e', he'⟩ : ∃ e', e' = msg.writes.foldl (fun e w => w.apply e) e := ⟨_, rfl⟩
  rw [← he'] at htold hsame hbye ⊢
  rw [← hwrites] at htold
  have hpairs : e'.pairs = (c.hear msg).flows := htold.pairs
  obtain ⟨rest, hrest⟩ : e.pairs <+: e'.pairs := by
    rw [hpairs, h.pairs]
    exact announcedFlows_grow c.messages msg
  refine ⟨?_, htold.hadT38, htold.rtpmapEvent, hpairs, fun j => ?_, hsame.packets.trans h.packets,
    hsame.firstPacketTime.trans h.firstPacketTime, hsame.lastPacketTime.trans h.lastPacketTime,
    hsame.fPcap.trans h.fPcap⟩
  · rw [hbye, h.hadBye]
    simp [Call.finished, Call.hear]
  · -- the places taken before keep their pairs
    have hplace : ∀ j : Fin maxIpPerCall, j.val < e.ipN →
        j.val < e'.ipN ∧ (e'.ip j, e'.port j) = (e.ip j, e.port j) := by
      intro j hj
      have hold := e.getElem?_pairs j
      have hnew := e'.getElem?_pairs j
      rw [if_pos hj] at hold
      rw [← hrest, List.getElem?_append_left (List.getElem?_eq_some_iff.mp hold).1, hold] at hnew
      by_cases hj' : j.val < e'.ipN
      · rw [if_pos hj'] at hnew
        exact ⟨hj', (Option.some.inj hnew).symm⟩
      · rw [if_neg hj'] at hnew
        cases hnew
    rw [hsame.ssrc, h.ssrc]
    by_cases hj : j.val < e.ipN
    · obtain ⟨hj', hpair⟩ := hplace j hj
      rw [if_pos hj, if_pos hj', hpair]
      rfl
    rw [if_neg hj]
    by_cases hj' : j.val < e'.ipN
    · -- a new pair is none of those to which media has been attributed
      rw [if_pos hj']
      refine (Call.lastSsrc_of_not_mem (c := c) fun hmem => ?_).symm
      rw [← h.pairs, CalltableElement.mem_pairs] at hmem
      obtain ⟨k, hk, hpair⟩ := hmem
      obtain ⟨hk', hpair'⟩ := hplace k hk
      obtain ⟨hip, hport⟩ := Prod.mk.inj (hpair'.trans hpair)
      obtain rfl := htold.distinct.inj k j hk' hj' hip hport
      exact hj hk
    · rw [if_neg hj']

/-! ### Receiving media -/

lemma Call.lastSsrc_receive (c : Call) {m : Media} (hm : m.flow ∈ c.flows) (q : IpPort) :
    (c.receive m hm).lastSsrc q = if m.flow = q then m.ssrc else c.lastSsrc q := by
  rw [Call.lastSsrc, Call.receive, List.filter_append, List.map_append]
  by_cases hq : m.flow = q
  · rw [if_pos hq, List.filter_cons_of_pos (by simpa using hq)]
    exact List.getLastD_concat
  · rw [if_neg hq, List.filter_cons_of_neg (by simpa using hq)]
    exact congrArg (List.getLastD · 0) (List.append_nil _)

lemma Call.saved_receive (c : Call) {m : Media} (hm : m.flow ∈ c.flows) :
    (c.receive m hm).saved = c.saved ++ if m.saved then [m] else [] := by
  rw [Call.saved, Call.receive, List.filter_append]
  congr 1
  by_cases hs : m.saved
  · rw [if_pos hs, List.filter_cons_of_pos hs, List.filter_nil]
  · rw [if_neg hs, List.filter_cons_of_neg hs, List.filter_nil]

/-- **A packet of a flow is received**, and counted if it is saved. -/
theorem Describes.receive (h : Describes e c) (hd : FlowsDistinct e) {j : Fin maxIpPerCall}
    (hj : j.val < e.ipN) {m : Media} (hm : m.flow ∈ c.flows) (hflow : (e.ip j, e.port j) = m.flow) :
    Describes ((if m.saved then [.rtp m.ts] else []).foldl (fun e w => ElementWrite.apply w e)
      (e.setSsrc j m.ssrc)) (c.receive m hm) := by
  have hssrc : ∀ k, (e.setSsrc j m.ssrc).ssrc k =
      if k.val < e.ipN then (c.receive m hm).lastSsrc (e.ip k, e.port k) else 0 := by
    intro k
    have hupdate : (e.setSsrc j m.ssrc).ssrc k = Function.update e.ssrc j m.ssrc k := rfl
    rw [hupdate, Call.lastSsrc_receive, ← hflow]
    by_cases hk : k = j
    · rw [hk, Function.update_self, if_pos hj, if_pos rfl]
    rw [Function.update_of_ne hk, h.ssrc]
    by_cases hlt : k.val < e.ipN
    · rw [if_pos hlt, if_pos hlt, if_neg]
      intro hpair
      obtain ⟨hip, hport⟩ := Prod.mk.inj hpair
      exact hk (hd.inj j k hj hlt hip hport).symm
    · rw [if_neg hlt, if_neg hlt]
  have hsaved := c.saved_receive hm
  by_cases hs : m.saved
  · rw [if_pos hs] at hsaved
    simp only [if_pos hs, List.foldl_cons, List.foldl_nil]
    refine ⟨h.hadBye, h.hadT38, h.rtpmapEvent, h.pairs, hssrc, ?_, h.firstPacketTime, ?_, h.fPcap⟩
    · rw [hsaved, List.length_append, List.length_singleton, UInt64.ofNat_add, ← h.packets]
      rfl
    · rw [Call.lastTime, hsaved, List.map_append]
      exact List.getLastD_concat.symm
  · rw [if_neg hs, List.append_nil] at hsaved
    simp only [if_neg hs, List.foldl_nil]
    refine ⟨h.hadBye, h.hadT38, h.rtpmapEvent, h.pairs, hssrc, ?_, h.firstPacketTime, ?_, h.fPcap⟩
    · rw [hsaved]
      exact h.packets
    · rw [Call.lastTime, hsaved]
      exact h.lastPacketTime

/-! ### Fresh calls, and what is asked of an element -/

/-- An element that has been taken for a new call. -/
theorem describes_fresh (callId caller callee : Bytes) (ts : ℤ) (f : Option Handle)
    (fnPcap : Buf 128) :
    Describes ((ElementWrite.file f fnPcap).apply
      (CalltableElement.zero.init callId caller callee ts)) (Call.fresh ts f) where
  hadBye := rfl
  hadT38 := rfl
  rtpmapEvent := rfl
  pairs := rfl
  ssrc j := (if_neg (Nat.not_lt_zero j.val)).symm
  packets := rfl
  firstPacketTime := rfl
  lastPacketTime := rfl
  fPcap := rfl

/-- The pass frees the elements whose calls are over. -/
lemma Describes.due (h : Describes e c) {ct : Calltable} (hu : e.isUsed) (T : ℤ) :
    ct.due T e = c.isOver ct.optAbsoluteTimeout T := by
  rw [Calltable.due, CalltableElement.expired, hu, Bool.true_and, h.firstPacketTime,
    h.lastPacketTime, Call.isOver]

/-- The file gets a packet of the flow. -/
lemma Describes.saves (h : Describes e c) (data : Bytes) :
    (e.fPcap.isSome && savesPayload o data e) = c.saves o (u8 data 1) := by
  rw [savesPayload, Call.saves, h.fPcap, h.rtpmapEvent]

end PcapSipDump
