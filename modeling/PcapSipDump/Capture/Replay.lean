import PcapSipDump.Capture.Interference
import PcapSipDump.Capture.Reread
import PcapSipDump.Lib.FirstMatch

/-!
# What has been dumped is read again

What the program has dumped for a call can be its input.  Then the program dumps the same packets
again: each of them, which was recorded among the packets of other calls, is attributed to the same
call when it is read without them, since what the call takes depends on its own packets only.
`Replays` relates the archive of the capture to the archive of the second run, and
`dumped_read_again` states the result for the capture loop.

The second run records every call (`Options.everyCall`): with `-l` the number of the call would
decide.  With `-R rtpevent` not all media of a call is dumped, so the SSRCs may be others.
-/

namespace PcapSipDump

open Lib Lib.CString

variable {o : Options} {host : Host} {p q : Packet} {s t : State} {A A' B B' : Archive}
  {f g : Handle} {k : CallKey} {c c' : Call} {msg msg' : SipMessage}

/-! ### Alike messages and calls -/

/-- The payload type of events registers no flow. -/
lemma filterMap_flow_filter (es : List ElementWrite) :
    (es.filter fun e => e.event.isNone).filterMap ElementWrite.flow =
      es.filterMap ElementWrite.flow := by
  rw [List.filterMap_filter]
  congr 1
  funext e
  cases e <;> rfl

namespace SipMessage.Alike

lemma isBye (h : msg.Alike msg') : msg'.isBye = msg.isBye := by
  rw [SipMessage.isBye, SipMessage.isBye, h.method]

lemma flows (h : msg.Alike msg') :
    msg'.writes.filterMap ElementWrite.flow = msg.writes.filterMap ElementWrite.flow := by
  rw [writes, writes, List.filterMap_append, List.filterMap_append, h.isBye,
    ← filterMap_flow_filter msg'.body, h.body, filterMap_flow_filter]

lemma numberFilterMatched (h : msg.Alike msg') :
    PcapSipDump.numberFilterMatched o msg' = PcapSipDump.numberFilterMatched o msg := by
  rw [PcapSipDump.numberFilterMatched, PcapSipDump.numberFilterMatched, h.caller, h.called]

lemma fileName (h : msg.Alike msg') (ts : ℤ) :
    PcapSipDump.fileName o host msg' ts = PcapSipDump.fileName o host msg ts := by
  rw [PcapSipDump.fileName, PcapSipDump.fileName, callidStr, callidStr, h.caller, h.called,
    h.callId]

end SipMessage.Alike

/-- The calls have the same history, with alike messages; the files may be others. -/
structure Call.Alike (c c' : Call) : Prop where
  since : c'.since = c.since
  messages : List.Forall₂ SipMessage.Alike c.messages c'.messages
  media : c'.media = c.media

/-- Alike messages announce the same flows, and the same end of the call. -/
lemma announced_of_forall₂ {msgs msgs' : List SipMessage}
    (h : List.Forall₂ SipMessage.Alike msgs msgs') :
    (msgs'.flatMap SipMessage.writes).filterMap ElementWrite.flow =
        (msgs.flatMap SipMessage.writes).filterMap ElementWrite.flow ∧
      msgs'.any SipMessage.isBye = msgs.any SipMessage.isBye := by
  induction h with
  | nil => exact ⟨rfl, rfl⟩
  | cons hm _ ih =>
    refine ⟨?_, ?_⟩
    · rw [List.flatMap_cons, List.flatMap_cons, List.filterMap_append, List.filterMap_append,
        hm.flows, ih.1]
    · rw [List.any_cons, List.any_cons, hm.isBye, ih.2]

namespace Call.Alike

lemma flows (h : c.Alike c') : c'.flows = c.flows := by
  rw [Call.flows, Call.flows, announcedFlows, announcedFlows, (announced_of_forall₂ h.messages).1]

/-- They take the same packets. -/
lemma takes_iff (h : c.Alike c') (q : IpPort) (ssrc : UInt32) :
    c'.Takes q ssrc ↔ c.Takes q ssrc := by
  have hfinished : c'.finished = c.finished := (announced_of_forall₂ h.messages).2
  rw [Call.Takes, Call.Takes, h.flows, hfinished, Call.lastSsrc, Call.lastSsrc, h.media]

/-- They are over at the same time. -/
lemma isOver (h : c.Alike c') (timeout T : ℤ) : c'.isOver timeout T = c.isOver timeout T := by
  rw [Call.isOver, Call.isOver, Call.lastTime, Call.lastTime, Call.saved, Call.saved, h.media,
    h.since]

lemma hear (h : c.Alike c') (hm : msg.Alike msg') : (c.hear msg).Alike (c'.hear msg') :=
  ⟨h.since, List.rel_append h.messages (.cons hm .nil), h.media⟩

lemma receive (h : c.Alike c') {m m' : Media} (hmm : m' = m) (hm : m.flow ∈ c.flows)
    (hm' : m'.flow ∈ c'.flows) : (c.receive m hm).Alike (c'.receive m' hm') := by
  subst hmm
  exact ⟨h.since, h.messages, congrArg (· ++ [m']) h.media⟩

end Call.Alike

/-- A call with a file takes all media into it, but for the mode for events. -/
lemma Call.saves_of_file (hmode : o.optRtpsave ≠ .rtpEvent) (pt : UInt8) :
    c.saves o pt = c.file.isSome := by
  rw [Call.saves, decide_eq_true hmode, Bool.true_or, Bool.and_true]

/-! ### The settings of the second run -/

/-- The settings, but for `-l`. -/
def Options.everyCall (o : Options) : Options :=
  { o with optCallSkipN := 1, callSkipN_pos := le_rfl }

lemma reading_everyCall (o : Options) (p : Packet) : reading o.everyCall p = reading o p := rfl

/-! ### The relation of the archives -/

/-- A message of a call with another file does not tell that a datagram goes to the file. -/
lemma Archive.of_datagrams_tell {datagram : Option AddrAddrId} {aai : AddrAddrId}
    (hne : c.file ≠ some f) (h : (A.tell k c p datagram).datagrams aai = some f) :
    A.datagrams aai = some f := by
  rw [Archive.datagrams_tell] at h
  cases datagram with
  | none => exact h
  | some aai₁ =>
    dsimp only at h
    rw [Function.update_apply] at h
    split at h
    · exact absurd h hne
    · exact h

/-- One message in two archives tells the same of a datagram. -/
lemma Archive.datagrams_tell_imp {datagram : Option AddrAddrId} {aai : AddrAddrId}
    (hdatagrams : A.datagrams aai = some f → B.datagrams aai = some g)
    (hfile : c.file = some f → c'.file = some g)
    (h : (A.tell k c p datagram).datagrams aai = some f) :
    (B.tell k c' q datagram).datagrams aai = some g := by
  rw [Archive.datagrams_tell] at h ⊢
  cases datagram with
  | none => exact hdatagrams h
  | some aai₁ =>
    dsimp only at h ⊢
    rw [Function.update_apply] at h ⊢
    split
    · rename_i heq
      rw [if_pos heq] at h
      exact hfile h
    · rename_i hne
      rw [if_neg hne] at h
      exact hdatagrams h

/-- The archive `B` has heard the packets in the file `f` of the archive `A`, which is a file of the
call with the key `k`, and has written them to its only file `g`. -/
structure Replays (k : CallKey) (f g : Handle) (A B : Archive) : Prop where
  opened : (k, f) ∈ A.opened
  reopened : B.opened = [(k, g)]
  only : ∀ k' c, A.calls k' = some c → c.file = some f → k' = k
  call : ∀ c, A.calls k = some c → c.file = some f →
    ∃ c', B.calls k = some c' ∧ c.Alike c' ∧ c'.file = some g
  others : ∀ k' c', B.calls k' = some c' → k' = k
  datagrams : ∀ aai, A.datagrams aai = some f → B.datagrams aai = some g
  written : B.written = (A.written.filter fun d => d.1 = f).map fun d => (g, d.2)

namespace Replays

/-- The first archive goes on without the file. -/
lemma left (h : Replays k f g A B) (hopened : A.opened ⊆ A'.opened)
    (hcalls : ∀ k' c, A'.calls k' = some c → c.file = some f → A.calls k' = some c)
    (hdatagrams : ∀ aai, A'.datagrams aai = some f → A.datagrams aai = some f)
    (hwritten : (A'.written.filter fun d => d.1 = f) = A.written.filter fun d => d.1 = f) :
    Replays k f g A' B where
  opened := hopened h.opened
  reopened := h.reopened
  only k' c hc hf := h.only k' c (hcalls k' c hc hf) hf
  call c hc hf := h.call c (hcalls k c hc hf) hf
  others := h.others
  datagrams aai haai := h.datagrams aai (hdatagrams aai haai)
  written := hwritten ▸ h.written

lemma expire_left (h : Replays k f g A B) (T : ℤ) : Replays k f g (A.expire o T) B :=
  h.left (List.Subset.refl _) (fun _ _ hc _ => (Option.filter_eq_some_iff.mp hc).1)
    (fun _ haai => haai) rfl

/-- The pass in front of an input of the first run. -/
lemma pass_left (h : Replays k f g A B) (a : Input) : Replays k f g (A.pass o a) B := by
  cases a with
  | cleanup T => exact h.expire_left T
  | packet p =>
    unfold Archive.pass
    dsimp only
    split
    · have hexpire := h.expire_left (o := o) p.ts
      exact ⟨hexpire.opened, hexpire.reopened, hexpire.only, hexpire.call, hexpire.others,
        hexpire.datagrams, hexpire.written⟩
    · exact h

/-- The pass in front of a packet of the second run, at which the call is not over. -/
lemma pass_right (h : Replays k f g A B) (hcurrent : ∀ c, A.calls k = some c → c.file = some f →
    c.isOver o.optAbsoluteTimeout q.ts = false) :
    Replays k f g A (B.pass o.everyCall (.packet q)) := by
  unfold Archive.pass
  dsimp only
  split
  · refine ⟨h.opened, h.reopened, h.only, fun c hc hf => ?_, fun k' c' hc' => ?_, h.datagrams,
      h.written⟩
    · obtain ⟨c', hc', halike, hfile⟩ := h.call c hc hf
      refine ⟨c', Option.filter_eq_some_iff.mpr ⟨hc', ?_⟩, halike, hfile⟩
      have hover : c'.isOver o.everyCall.optAbsoluteTimeout q.ts = false :=
        (halike.isOver _ _).trans (hcurrent c hc hf)
      rw [hover]
      rfl
    · exact h.others k' c' (Option.filter_eq_some_iff.mp hc').1
  · exact h

/-- What is not written to the file has no part in it. -/
lemma file_ne {written : List (Handle × Record)} {file : Option Handle} {r : Record}
    (h : ((written ++ file.toList.map fun f => (f, r)).filter fun d => d.1 = f) =
      written.filter fun d => d.1 = f) : file ≠ some f := by
  rintro rfl
  rw [List.filter_append, List.append_right_eq_self] at h
  simp at h

/-- What is written to the file is its record. -/
lemma file_eq {written : List (Handle × Record)} {file : Option Handle} {r : Record}
    (h : ((written ++ file.toList.map fun f => (f, r)).filter fun d => d.1 = f) ≠
      written.filter fun d => d.1 = f) : file = some f := by
  by_contra hne
  refine h ?_
  rw [List.filter_append, List.append_right_eq_self, List.filter_eq_nil_iff]
  rintro d hd hdf
  obtain ⟨f', hf', rfl⟩ := List.mem_map.mp hd
  exact hne ((Option.mem_toList.mp hf').trans (congrArg some (of_decide_eq_true hdf)))

/-- **A packet that is not dumped into the file** is no concern of the second run. -/
lemma skip (h : Replays k f g A B) (hmode : o.optRtpsave ≠ .rtpEvent) (hA : A.Hears o p A')
    (hno : (A'.written.filter fun d => d.1 = f) = A.written.filter fun d => d.1 = f) :
    Replays k f g A' B := by
  -- a call that has changed has another file
  have hchanged : ∀ (k₁ : CallKey) (c₁ : Call), c₁.file ≠ some f → ∀ k' c,
      Function.update A.calls k₁ (some c₁) k' = some c → c.file = some f → A.calls k' = some c := by
    intro k₁ c₁ hne k' c hc hf
    rw [Function.update_apply] at hc
    split at hc
    · obtain rfl := Option.some.inj hc
      exact absurd hf hne
    · exact hc
  cases hA with
  | other => exact h
  | stray => exact h
  | @fragment aai last hr =>
    refine h.left (List.Subset.refl _) (fun _ _ hc _ => hc) (fun aai' haai => ?_) hno
    cases last with
    | false => exact haai
    | true =>
      have hupdate : Function.update A.datagrams aai none aai' = some f := haai
      rw [Function.update_apply] at hupdate
      split at hupdate
      · cases hupdate
      · exact hupdate
  | @media flows before after q ssrc pt message datagram k₁ c₁ hr hflows hbefore hk htakes =>
    have hne : c₁.file ≠ some f := by
      intro hf
      have hsaves : c₁.saves o pt = true := by
        rw [Call.saves_of_file hmode, hf]
        rfl
      refine file_ne (f := f) hno ?_
      rw [if_pos hsaves, hf]
    exact h.left (List.Subset.refl _) (hchanged k₁ _ hne) (fun _ haai => haai) hno
  | @known flows ssrc pt msg callId datagram c₁ hr hflows hid hk =>
    rw [Archive.written_tell] at hno
    have hne : (c₁.hear msg).file ≠ some f := file_ne hno
    refine h.left ?_ ?_ ?_ ?_
    · rw [Archive.opened_tell]
      exact List.Subset.refl _
    · rw [Archive.calls_tell]
      exact hchanged _ _ hne
    · exact fun aai haai => Archive.of_datagrams_tell hne haai
    · rw [Archive.written_tell]
      exact hno
  | @new flows ssrc pt msg callId datagram file hr hflows hid hk hn hfile =>
    rw [Archive.written_tell] at hno
    have hne : ((Call.fresh p.ts file).hear msg).file ≠ some f := file_ne hno
    refine h.left ?_ ?_ ?_ ?_
    · rw [Archive.opened_tell]
      exact List.subset_append_left _ _
    · rw [Archive.calls_tell]
      exact hchanged _ _ hne
    · intro aai haai
      have hold := Archive.of_datagrams_tell hne haai
      exact hold
    · rw [Archive.written_tell]
      exact hno

/-- Both archives write the packet, and go on with the call. -/
lemma both (h : Replays k f g A B) (halike : c.Alike c') (hfile : c'.file = some g)
    (hcalls : A'.calls = Function.update A.calls k (some c))
    (hcalls' : B'.calls = Function.update B.calls k (some c')) (hopened : A'.opened = A.opened)
    (hopened' : B'.opened = B.opened)
    (hdatagrams : ∀ aai, A'.datagrams aai = some f → B'.datagrams aai = some g) {r : Record}
    (hwritten : A'.written = A.written ++ [(f, r)])
    (hwritten' : B'.written = B.written ++ [(g, r)]) : Replays k f g A' B' where
  opened := hopened ▸ h.opened
  reopened := hopened'.trans h.reopened
  only k' c₁ hc hf := by
    rw [hcalls, Function.update_apply] at hc
    split at hc
    · assumption
    · exact h.only k' c₁ hc hf
  call c₁ hc _ := by
    rw [hcalls, Function.update_self] at hc
    obtain rfl := Option.some.inj hc
    exact ⟨c', by rw [hcalls', Function.update_self], halike, hfile⟩
  others k' c₁ hc := by
    rw [hcalls', Function.update_apply] at hc
    split at hc
    · assumption
    · exact h.others k' c₁ hc
  datagrams := hdatagrams
  written := by
    rw [hwritten', h.written, hwritten, List.filter_append, List.map_append]
    simp

/-- What the call takes in the second run, it takes in the first one. -/
lemma wants (h : Replays k f g A B) (hc : A.calls k = some c) (hf : c.file = some f) {q : IpPort}
    {ssrc : UInt32} (hB : B.Wants q ssrc) : A.Wants q ssrc := by
  obtain ⟨c', hc', halike, -⟩ := h.call c hc hf
  obtain ⟨k', c₁, hc₁, htakes⟩ := hB
  obtain rfl := h.others k' c₁ hc₁
  obtain rfl := Option.some.inj (hc'.symm.trans hc₁)
  exact ⟨k', c, hc, (halike.takes_iff q ssrc).mp htakes⟩

end Replays

/-- Where no call takes the packet, no flow is found. -/
lemma Archived.findFlow_eq_none (h : Archived o s A) {q : IpPort} {ssrc : UInt32}
    (hno : ¬A.Wants q ssrc) : s.world.ct.findFlow q.1 q.2 ssrc = none := by
  rcases hf : s.world.ct.findFlow q.1 q.2 ssrc with _ | x
  · rfl
  · obtain ⟨-, -, -, c, hc, -, htakes⟩ := h.calls.takes_of_findFlow h.tableInv hf
    exact absurd ⟨_, c, hc, htakes⟩ hno

/-! ### A packet of the file -/

/-- The packet, which goes to the file `f` in the state `s`, can be read again: it was captured as
far as it was looked at, and a pass at its time would not end the call of the file. -/
structure Rereadable (o : Options) (f : Handle) (s : State) (p : Packet) : Prop where
  captured : Dissector.FrameCaptured o s.world p
  len : p.caplen ≤ p.len.toNat
  short : p.caplen < 2 ^ 31
  current : ∀ e ∈ s.world.ct.table, e.fPcap = some f → ¬s.world.ct.due p.ts e

/-- What is dissected from the captured bytes alone was captured. -/
lemma Rereadable.of_eval
    (h : (Dissector.dispatch o s.world.ct p.caplen).eval p.bytes ≠ none)
    (hlen : p.caplen ≤ p.len.toNat) (hshort : p.caplen < 2 ^ 31)
    (hcurrent : ∀ e ∈ s.world.ct.table, e.fPcap = some f → ¬s.world.ct.due p.ts e) :
    Rereadable o f s p :=
  ⟨(Dissector.within_dispatch o s.world p).mp (Reads.eval_ne_none_iff.mp h), hlen, hshort, hcurrent⟩

/-- The packet is dumped as it was captured. -/
lemma Rereadable.record (h : Rereadable o f s p) : p.terminate.record = p.record :=
  Packet.record_terminate h.len

lemma Rereadable.record_reread (h : Rereadable o f s p) (hr : q.record = p.record) :
    q.terminate.record = p.record := by
  rw [Packet.record_terminate, hr]
  rw [caplen_reread hr, show q.len = p.len from congrArg Record.len hr]
  exact h.len

/-- A call with the file is not over when the packet comes. -/
lemma Rereadable.isOver (h : Rereadable o f s p) (harch : Archived o s A)
    (hc : A.calls k = some c) (hf : c.file = some f) :
    c.isOver o.optAbsoluteTimeout p.ts = false := by
  obtain ⟨i, hu, rfl⟩ := harch.calls.current k c hc
  obtain ⟨c', hc', hd⟩ := harch.calls.described i hu
  obtain rfl := Option.some.inj (hc.symm.trans hc')
  have hmem : s.world.ct.slot i ∈ s.world.ct.table :=
    SlotTable.at_mem _ (Calltable.lt_length_of_used hu)
  have hdue := h.current _ hmem (hd.fPcap.trans hf)
  rw [hd.due hu, harch.timeout] at hdue
  exact Bool.eq_false_of_not_eq_true hdue

namespace Replays

/-- A fragment that goes to the file goes to the file of the second run. -/
lemma hears_fragment (h : Replays k f g A B) (hre : Rereadable o f s p) (hr : q.record = p.record)
    {aai : AddrAddrId} {last : Bool} (hp : reading o p = .fragment aai last)
    (hfile : A.datagrams aai = some f) (hB : B.Hears o.everyCall q B') :
    Replays k f g { A.write (A.datagrams aai) p.record with
      datagrams := if last then Function.update A.datagrams aai none else A.datagrams } B' := by
  have hq := (reading_everyCall o q).trans (reading_fragment_reread hr hre.captured hp)
  cases hB with
  | other hq' | media hq' | stray hq' | known hq' | new hq' => cases hq.symm.trans hq'
  | fragment hq' =>
    obtain ⟨rfl, rfl⟩ := Reading.fragment.inj (hq.symm.trans hq')
    refine ⟨h.opened, h.reopened, h.only, h.call, h.others, fun aai' haai => ?_, ?_⟩
    · cases last with
      | false => exact h.datagrams aai' haai
      | true =>
        have hupdate : Function.update A.datagrams aai none aai' = some f := haai
        rw [Function.update_apply] at hupdate
        split at hupdate
        · cases hupdate
        · rename_i hne
          exact (Function.update_of_ne hne _ _).trans (h.datagrams aai' hupdate)
    · simp only [Archive.write, hfile, h.datagrams aai hfile, h.written, hr,
        List.filter_append, List.map_append]
      simp

/-- Media of the call is media of the call in the second run. -/
lemma hears_media (h : Replays k f g A B) (hmode : o.optRtpsave ≠ .rtpEvent)
    (hre : Rereadable o f s p) (hr : q.record = p.record) {flows before after : List IpPort}
    {flow : IpPort} {ssrc : UInt32} {pt : UInt8} {message : Option SipMessage}
    {datagram : Option AddrAddrId} (hp : reading o p = .payload flows ssrc pt message datagram)
    (hflows : flows = before ++ flow :: after) (hbefore : ∀ q ∈ before, ¬A.Wants q ssrc)
    (hk : A.calls k = some c) (htakes : c.Takes flow ssrc) (hsaves : c.saves o pt = true)
    (hf : c.file = some f) (hB : B.Hears o.everyCall q B') :
    Replays k f g ((A.update k (c.receive ⟨flow, ssrc, p.ts, c.saves o pt⟩ htakes.1)).write
      (if c.saves o pt then c.file else none) p.record) B' := by
  obtain ⟨c', hc', halike, hfile'⟩ := h.call c hk hf
  have hmem : flow ∈ flows := by
    rw [hflows]
    exact List.mem_append_right _ List.mem_cons_self
  have hsave : o.optRtpsave ≠ .none := by
    intro hnone
    obtain ⟨ip, -, -, -, hlookup, -⟩ := of_reading_payload hp
    rw [hlookup, lookupFlows, if_pos hnone] at hmem
    exact absurd hmem List.not_mem_nil
  obtain ⟨pt', message', datagram', hq⟩ := reading_media_reread hr hre.captured hsave hp
  have hq := (reading_everyCall o q).trans hq
  have hwants : B.Wants flow ssrc := ⟨k, c', hc', (halike.takes_iff flow ssrc).mpr htakes⟩
  cases hB with
  | other hq' | fragment hq' => cases hq.symm.trans hq'
  | stray hq' hno | known hq' hno | new hq' hno =>
    obtain ⟨rfl, rfl, -⟩ := Reading.payload.inj (hq.symm.trans hq')
    exact absurd hwants (hno flow hmem)
  | @media flows' before' after' flow' _ _ _ _ k' c'' hq' hflows' hbefore' hk' htakes' =>
    obtain ⟨rfl, rfl, rfl, rfl, rfl⟩ := Reading.payload.inj (hq.symm.trans hq')
    obtain rfl := h.others k' c'' hk'
    obtain rfl := Option.some.inj (hc'.symm.trans hk')
    -- the calls that are gone in the second run had not taken an earlier flow
    obtain rfl : flow = flow' := first_of_append (P := fun x => B.Wants x ssrc)
      (hflows.symm.trans hflows') (fun x hx hw => hbefore x hx (h.wants hk hf hw)) hwants hbefore'
      ⟨_, _, hk', htakes'⟩
    have hsaves' : c'.saves o.everyCall pt' = true := by
      rw [Call.saves_of_file (o := o.everyCall) hmode, hfile']
      rfl
    have hts : q.ts = p.ts := congrArg Record.ts hr
    refine h.both (r := p.record) (halike.receive ?_ htakes.1 htakes'.1) hfile' rfl rfl rfl rfl
      h.datagrams ?_ ?_
    · rw [hsaves, hsaves', hts]
    · simp only [Archive.write, if_pos hsaves, hf]
      rfl
    · simp only [Archive.write, if_pos hsaves', hfile', hr]
      rfl

/-- A message of the call is a message of the call in the second run, which knows the call. -/
lemma hears_message {callId : Bytes} (h : Replays (keyOf callId) f g A B)
    (harch : Archived o s A) (hre : Rereadable o f s p) (hr : q.record = p.record)
    {flows : List IpPort} {ssrc : UInt32} {pt : UInt8} {datagram : Option AddrAddrId}
    (hp : reading o p = .payload flows ssrc pt (some msg) datagram)
    (hflows : ∀ q ∈ flows, ¬A.Wants q ssrc) (hid : msg.callId = some callId)
    (hk : A.calls (keyOf callId) = some c) (hf : c.file = some f)
    (hB : B.Hears o.everyCall q B') :
    Replays (keyOf callId) f g (A.tell (keyOf callId) (c.hear msg) p datagram) B' := by
  obtain ⟨c', hc', halike, hfile'⟩ := h.call c hk hf
  obtain ⟨ssrc', pt', msg', hq, hmsg, hssrc⟩ := reading_message_reread hr hre.captured hre.len
    hre.short hp fun x hx => harch.findFlow_eq_none (hflows x hx)
  have hq := (reading_everyCall o q).trans hq
  cases hB with
  | other hq' | fragment hq' => cases hq.symm.trans hq'
  | @media flows' before' after' flow' _ _ _ _ k' c'' hq' hflows' hbefore' hk' htakes' =>
    obtain ⟨rfl, rfl, -⟩ := Reading.payload.inj (hq.symm.trans hq')
    have hmem : flow' ∈ flows := by
      rw [hflows']
      exact List.mem_append_right _ List.mem_cons_self
    obtain rfl := hssrc (List.ne_nil_of_mem hmem)
    exact absurd (h.wants hk hf ⟨k', c'', hk', htakes'⟩) (hflows flow' hmem)
  | stray hq' _ hno =>
    obtain ⟨-, -, -, rfl, -⟩ := Reading.payload.inj (hq.symm.trans hq')
    have hnone := (hno msg' callId rfl (hmsg.callId.trans hid)).1
    rw [hc'] at hnone
    cases hnone
  | new hq' _ hid' hk' =>
    obtain ⟨-, -, -, hsome, -⟩ := Reading.payload.inj (hq.symm.trans hq')
    obtain rfl := Option.some.inj hsome
    obtain rfl := Option.some.inj ((hmsg.callId.trans hid).symm.trans hid')
    rw [hc'] at hk'
    cases hk'
  | known hq' _ hid' hk' =>
    obtain ⟨-, -, -, hsome, rfl⟩ := Reading.payload.inj (hq.symm.trans hq')
    obtain rfl := Option.some.inj hsome
    obtain rfl := Option.some.inj ((hmsg.callId.trans hid).symm.trans hid')
    obtain rfl := Option.some.inj (hc'.symm.trans hk')
    refine h.both (r := p.record) (halike.hear hmsg) hfile' (Archive.calls_tell _ _ _ _ _)
      (Archive.calls_tell _ _ _ _ _) (Archive.opened_tell _ _ _ _ _)
      (Archive.opened_tell _ _ _ _ _) ?_ ?_ ?_
    · exact fun aai => Archive.datagrams_tell_imp (h.datagrams aai) fun _ => hfile'
    · rw [Archive.written_tell, show (c.hear msg).file = some f from hf, hre.record]
      rfl
    · rw [Archive.written_tell, show (c'.hear msg').file = some g from hfile',
        hre.record_reread hr]
      rfl

/-- **A packet of the file** is attributed to the call in the second run, and dumped into the file
of this run. -/
theorem hears (h : Replays k f g A B) (hmode : o.optRtpsave ≠ .rtpEvent) (harch : Archived o s A)
    (hre : Rereadable o f s p) (hr : q.record = p.record) (hA : A.Hears o p A')
    (hB : B.Hears o.everyCall q B')
    (hyes : (A'.written.filter fun d => d.1 = f) ≠ A.written.filter fun d => d.1 = f) :
    Replays k f g A' B' := by
  cases hA with
  | other => exact absurd rfl hyes
  | stray => exact absurd rfl hyes
  | fragment hp => exact h.hears_fragment hre hr hp (file_eq hyes) hB
  | @media flows before after flow ssrc pt message datagram k₁ c₁ hp hflows hbefore hk htakes =>
    have hfile : (if c₁.saves o pt then c₁.file else none) = some f := file_eq hyes
    obtain ⟨hsaves, hf⟩ : c₁.saves o pt = true ∧ c₁.file = some f := by
      split at hfile
      · exact ⟨‹_›, hfile⟩
      · cases hfile
    obtain rfl := h.only k₁ c₁ hk hf
    exact h.hears_media hmode hre hr hp hflows hbefore hk htakes hsaves hf hB
  | @known flows ssrc pt msg callId datagram c₁ hp hflows hid hk =>
    rw [Archive.written_tell] at hyes
    have hf : c₁.file = some f := file_eq hyes
    obtain rfl := h.only _ c₁ hk hf
    exact h.hears_message harch hre hr hp hflows hid hk hf hB
  | @new flows ssrc pt msg callId datagram file hp hflows hid hk hn hfile =>
    rw [Archive.written_tell] at hyes
    have hf : file = some f := file_eq hyes
    exact absurd h.opened ((hfile f hf).2.2 k)

end Replays

/-! ### The first packet of the file -/

/-- A file that a packet has opened is that of the call that its message has added. -/
lemma Archive.Hears.of_opened (h : A.Hears o p A') (hnew : (k, f) ∈ A'.opened)
    (hold : (k, f) ∉ A.opened) :
    ∃ flows ssrc pt msg callId datagram, reading o p = .payload flows ssrc pt (some msg) datagram ∧
      (∀ q ∈ flows, ¬A.Wants q ssrc) ∧ msg.callId = some callId ∧ keyOf callId = k ∧
      A' = (A.enrol o k (some f) msg).tell k ((Call.fresh p.ts (some f)).hear msg) p datagram := by
  cases h with
  | other => exact absurd hnew hold
  | fragment => exact absurd hnew hold
  | media => exact absurd hnew hold
  | stray => exact absurd hnew hold
  | known =>
    rw [Archive.opened_tell] at hnew
    exact absurd hnew hold
  | @new flows ssrc pt msg callId datagram file hp hflows hid hk hn hfile =>
    rw [Archive.opened_tell] at hnew
    rcases List.mem_append.mp hnew with hnew | hnew
    · exact absurd hnew hold
    obtain ⟨f', hf', heq⟩ := List.mem_map.mp hnew
    obtain ⟨rfl, rfl⟩ := Prod.mk.inj heq
    obtain rfl := Option.mem_toList.mp hf'
    exact ⟨flows, ssrc, pt, msg, callId, datagram, hp, hflows, hid, rfl, rfl⟩

/-- Files that are known to the archive have been opened. -/
lemma Archived.mem_opened (h : Archived o s A) (hk : (k, f) ∈ A.opened) :
    f ∈ pcapFiles.opened s.world.log := by
  rw [← h.opened, List.mem_filterMap] at hk
  obtain ⟨e, he, hk⟩ := hk
  refine pcapFiles.mem_opened.mpr ⟨e, he, ?_⟩
  unfold IoEvent.openedFor at hk
  split at hk
  · obtain ⟨-, rfl⟩ := Prod.mk.inj (Option.some.inj hk)
    rfl
  · cases hk

lemma Archived.opened_of_mem (h : Archived o s A) {callId fn : Bytes}
    (hopen : .dumpOpen callId fn (some f) ∈ s.world.log) : (keyOf callId, f) ∈ A.opened := by
  rw [← h.opened]
  exact List.mem_filterMap.mpr ⟨_, hopen, rfl⟩

/-- The pass of an input keeps the provenance. -/
lemma Provenance.pass {inputs : List Input} (h : Provenance o inputs A) (a : Input) :
    Provenance o inputs (A.pass o a) := by
  cases a with
  | cleanup T => exact h.expire T
  | packet p =>
    unfold Archive.pass
    dsimp only
    split
    · have hexpire := h.expire p.ts
      exact ⟨hexpire.messages, hexpire.file, hexpire.datagrams, hexpire.written⟩
    · exact h

lemma Archive.opened_pass (A : Archive) (a : Input) : (A.pass o a).opened = A.opened := by
  cases a with
  | cleanup T => rfl
  | packet p =>
    unfold Archive.pass
    dsimp only
    split <;> rfl

/-- The archive before the first packet of the second run. -/
lemma Archive.pass_empty (q : Packet) :
    (({} : Archive).pass o (.packet q)).calls = (fun _ => none) ∧
      (({} : Archive).pass o (.packet q)).opened = [] ∧
      (({} : Archive).pass o (.packet q)).written = [] := by
  unfold Archive.pass
  dsimp only
  split <;> exact ⟨rfl, rfl, rfl⟩

/-- **The message that opens the file** has opened a file in both runs. -/
lemma Replays.first {inputs : List Input} (hprov : Provenance o inputs A)
    (hfresh : ∀ k, (k, f) ∉ A.opened) (hcalls : B.calls = fun _ => none) (hopened : B.opened = [])
    (hwritten : B.written = []) (hmsg : msg.Alike msg') (hre : Rereadable o f s p)
    (hr : q.record = p.record) (datagram : Option AddrAddrId) : Replays k f g
      ((A.enrol o k (some f) msg).tell k ((Call.fresh p.ts (some f)).hear msg) p datagram)
      ((B.enrol o.everyCall k (some g) msg').tell k ((Call.fresh q.ts (some g)).hear msg') q
        datagram) where
  opened := by
    rw [Archive.opened_tell]
    exact List.mem_append_right _ (List.mem_singleton_self _)
  reopened := by
    rw [Archive.opened_tell, Archive.enrol, hopened]
    rfl
  only k' c hc hf := by
    rw [Archive.calls_tell, Function.update_apply] at hc
    split at hc
    · assumption
    · exact absurd (hprov.file k' c hc f hf) (hfresh k')
  call c hc _ := by
    rw [Archive.calls_tell, Function.update_self] at hc
    obtain rfl := Option.some.inj hc
    refine ⟨_, by rw [Archive.calls_tell, Function.update_self], ?_, rfl⟩
    have hfresh : (Call.fresh p.ts (some f)).Alike (Call.fresh q.ts (some g)) :=
      ⟨congrArg Record.ts hr, .nil, rfl⟩
    exact hfresh.hear hmsg
  others k' c hc := by
    rw [Archive.calls_tell, Function.update_apply] at hc
    split at hc
    · assumption
    · rw [Archive.enrol, hcalls] at hc
      cases hc
  datagrams aai haai := by
    have hold : (A.enrol o k (some f) msg).datagrams aai ≠ some f := by
      intro hf
      obtain ⟨k', hk', -⟩ := hprov.datagrams aai f hf
      exact hfresh k' hk'
    exact Archive.datagrams_tell_imp (fun hf => absurd hf hold) (fun _ => rfl) haai
  written := by
    have hold : (A.written.filter fun d => d.1 = f) = [] := by
      rw [List.filter_eq_nil_iff]
      rintro ⟨f', r⟩ hd hf
      obtain rfl : f' = f := of_decide_eq_true hf
      obtain ⟨k', hk', -⟩ := hprov.written f' r hd
      exact hfresh k' hk'
    rw [Archive.written_tell, Archive.written_tell, hre.record, hre.record_reread hr]
    simp only [Archive.enrol, hwritten, List.filter_append, hold]
    simp [Call.hear, Call.fresh]

/-- A message is handled as one where no call is known. -/
lemma branch_of_empty (harch : Archived o t B) (hcalls : B.calls = fun _ => none)
    {flows : List IpPort} {ssrc : UInt32} {pt : UInt8} {datagram : Option AddrAddrId}
    (hq : reading o q = .payload flows ssrc pt (some msg) datagram) :
    ∃ ip, branch o q t.world = .sip ip msg := by
  rcases branch_reading o q t.world with ⟨hr, -⟩ | ⟨aai, last, hr, -⟩ |
    ⟨ip, message, hr, ⟨x, hx, -⟩ | ⟨-, ⟨rfl, -⟩ | ⟨msg₁, rfl, hb⟩⟩⟩
  · cases hq.symm.trans hr
  · cases hq.symm.trans hr
  · obtain ⟨before, y, after, -, -, hfound⟩ := rtpLookup_flows hx
    obtain ⟨-, -, -, c, hc, -⟩ := harch.calls.takes_of_findFlow harch.tableInv hfound
    rw [hcalls] at hc
    cases hc
  · obtain ⟨-, -, -, hmsg, -⟩ := Reading.payload.inj (hq.symm.trans hr)
    cases hmsg
  · obtain ⟨-, -, -, hmsg, -⟩ := Reading.payload.inj (hq.symm.trans hr)
    obtain rfl := Option.some.inj hmsg
    exact ⟨ip, hb⟩

/-- **A message that adds its call** opens a file when every call is recorded. -/
lemma opens_of_reading (harch : Archived o.everyCall t B) (hcalls : B.calls = fun _ => none)
    (hcnt : t.callSkipCnt = 1) {flows : List IpPort} {ssrc : UInt32} {pt : UInt8}
    {datagram : Option AddrAddrId} (hq : reading o q = .payload flows ssrc pt (some msg) datagram)
    {callId fn : Bytes} (hid : msg.callId = some callId) (hn : numberFilterMatched o msg)
    (hm : o.methodFilter msg.method) (hfn : fn = fileName o host msg q.ts)
    (hopens : ∀ log, host.dumpOpen log fn ≠ none) :
    ∃ g, .dumpOpen callId fn (some g) ∈
      (branch o.everyCall q t.world).calls o.everyCall host q t := by
  obtain ⟨ip, hb⟩ := branch_of_empty harch hcalls ((reading_everyCall o q).trans hq)
  have hf : t.world.ct.findByCallId callId = none := by
    rcases hf : t.world.ct.findByCallId callId with _ | i
    · rfl
    · obtain ⟨-, -, c, hc, -⟩ := harch.calls.find_some harch.tableInv hf
      rw [hcalls] at hc
      cases hc
  obtain ⟨log, hcall⟩ : ∃ log, .dumpOpen callId fn (host.dumpOpen log fn) ∈
      findOrAddCalls o.everyCall host msg q.ts t := by
    have hcnt' : (t.added msg callId q.ts).callSkipCnt - 1 ≤ 0 := by
      rw [show (t.added msg callId q.ts).callSkipCnt = t.callSkipCnt from rfl, hcnt]
      decide
    subst hfn
    simp only [findOrAddCalls, hid, hf]
    rw [if_pos (show numberFilterMatched o.everyCall msg from hn), newCallCalls,
      if_pos ⟨hm, hcnt'⟩]
    exact ⟨_, List.mem_append_right _ (List.mem_append_right _ (List.mem_singleton_self _))⟩
  obtain ⟨g, hg⟩ := Option.ne_none_iff_exists'.mp (hopens log)
  rw [hg] at hcall
  refine ⟨g, ?_⟩
  rw [hb]
  exact List.mem_append_left _ hcall

/-! ### Two runs -/

/-- The second run has read the packets that the dumper `f` of the first one has been given. -/
def ReadBack (o : Options) (k : CallKey) (f g : Handle) (s t : State) : Prop :=
  ∃ A B, Archived o s A ∧ Archived o.everyCall t B ∧ Replays k f g A B

/-- The records that an input gives to a dumper. -/
def fileRecords (o : Options) (host : Host) (f : Handle) (s : State) (a : Input) : List Record :=
  ((inputDumps o host s a).filter fun d => d.2.1 = f).map fun d => d.2.2

lemma dumpedTo_run (o : Options) (host : Host) (f : Handle) (hs : Owns s.world)
    (inputs : List Input) : ((loop o host).run s inputs).world.dumpedTo f =
      s.world.dumpedTo f ++ (loop o host).collect (fileRecords o host f) s inputs := by
  refine Machine.log_run (M := loop o host) (L := fun s : State => s.world.dumpedTo f)
    (I := fun s : State => Owns s.world) (fun _ a hs => hs.loop a) (fun s a hs => ?_) hs inputs
  have hwritten := written_loop o host (hs.afterPass a).tableInv
  simp only [World.dumpedTo, hwritten, List.filter_append, List.map_append]
  rfl

/-- A packet is dumped once at most. -/
lemma inputDumps_cases (o : Options) (host : Host) (s : State) (p : Packet) :
    inputDumps o host s (.packet p) = [] ∨
      ∃ via f, inputDumps o host s (.packet p) = [(via, f, via.record p)] := by
  have hsub : List.SublistForall₂ DumpOf (inputDumps o host s (.packet p)) [p] :=
    sublistForall₂_inputDumps o host s (.packet p)
  have hnil : ∀ {l : List (Via × Handle × Record)}, List.SublistForall₂ DumpOf l [] → l = [] := by
    intro l hl
    cases hl
    rfl
  rcases hdumps : inputDumps o host s (.packet p) with _ | ⟨⟨via, f, r⟩, l⟩
  · exact Or.inl rfl
  · rw [hdumps] at hsub
    cases hsub with
    | cons hd hl =>
      obtain rfl := hnil hl
      obtain rfl : r = via.record p := hd
      exact Or.inr ⟨via, f, rfl⟩
    | cons_right hl => cases hl

/-- What is dumped leaves the records of the file as they are, when none of it is for the file. -/
lemma filter_append_dumps_eq_iff {written : List (Handle × Record)}
    {dumps : List (Via × Handle × Record)} :
    (((written ++ dumps.map Prod.snd).filter fun d => d.1 = f) =
      written.filter fun d => d.1 = f) ↔ ∀ via r, (via, f, r) ∉ dumps := by
  rw [List.filter_append, List.append_right_eq_self, List.filter_eq_nil_iff]
  constructor
  · intro hno via r hd
    exact hno (f, r) (List.mem_map.mpr ⟨_, hd, rfl⟩) (decide_eq_true rfl)
  · intro hno d hd hdf
    obtain ⟨⟨via, f', r⟩, hmem, rfl⟩ := List.mem_map.mp hd
    obtain rfl : f' = f := of_decide_eq_true hdf
    exact hno via r hmem

/-- **One input** of the first run, and the packet of the second run that stands for it, if it is a
packet of the file. -/
theorem ReadBack.next (h : ReadBack o k f g s t) (hmode : o.optRtpsave ≠ .rtpEvent) (a : Input)
    (hre : ∀ p, a = .packet p → (∃ via r, (via, f, r) ∈ inputDumps o host s a) →
      Rereadable o f (afterPass s a) p)
    {qs : List Packet} (hqs : qs.map Packet.record = fileRecords o host f s a) :
    ReadBack o k f g ((loop o host).next s a)
      ((loop o.everyCall host).run t (qs.map Input.packet)) := by
  obtain ⟨A, B, hA, hB, h⟩ := h
  have hA₂ := hA.afterPass a
  have h₂ := h.pass_left (o := o) a
  cases a with
  | cleanup T =>
    obtain rfl : qs = [] := List.map_eq_nil_iff.mp hqs
    exact ⟨_, B, hA₂, hB, h₂⟩
  | packet p =>
    obtain ⟨A', hhears, hA'⟩ := hA₂.hears host p
    have hwritten : A'.written = (A.pass o (.packet p)).written ++
        (inputDumps o host s (.packet p)).map Prod.snd := by
      rw [← hA'.written, written_dispatch o host p hA₂.tableInv, List.map_append, hA₂.written]
      rfl
    have hkept : ((A'.written.filter fun d => d.1 = f) =
        (A.pass o (.packet p)).written.filter fun d => d.1 = f) ↔
          ∀ via r, (via, f, r) ∉ inputDumps o host s (.packet p) := by
      rw [hwritten]
      exact filter_append_dumps_eq_iff
    rcases inputDumps_cases o host s p with hdumps | ⟨via, f', hdumps⟩
    · rw [fileRecords, hdumps] at hqs
      obtain rfl : qs = [] := List.map_eq_nil_iff.mp hqs
      exact ⟨A', B, hA', hB, h₂.skip hmode hhears (hkept.mpr (by simp [hdumps]))⟩
    by_cases hf : f' = f
    · subst hf
      have hp := hre p rfl ⟨via, via.record p, by rw [hdumps]; exact List.mem_singleton_self _⟩
      have hrecord : via.record p = p.record := by
        cases via with
        | sip i => exact hp.record
        | _ => rfl
      rw [fileRecords, hdumps, hrecord] at hqs
      obtain ⟨q, rfl, hr⟩ : ∃ q, qs = [q] ∧ q.record = p.record := by
        simpa [List.map_eq_singleton_iff] using hqs
      have hts : q.ts = p.ts := congrArg Record.ts hr
      have h₃ := h₂.pass_right (q := q) fun c hc hcf => hts ▸ hp.isOver hA₂ hc hcf
      obtain ⟨B', hhB, hB'⟩ := (hB.afterPass (.packet q)).hears host q
      exact ⟨A', B', hA', hB', h₃.hears hmode hA₂ hp hr hhears hhB fun hno =>
        hkept.mp hno via (via.record p) (by rw [hdumps]; exact List.mem_singleton_self _)⟩
    · have hno : ∀ via r, (via, f, r) ∉ inputDumps o host s (.packet p) := by
        intro via' r hd
        rw [hdumps, List.mem_singleton] at hd
        exact hf (congrArg (fun d => d.2.1) hd).symm
      rw [fileRecords, hdumps, List.filter_cons_of_neg (by simpa using hf)] at hqs
      obtain rfl : qs = [] := List.map_eq_nil_iff.mp hqs
      exact ⟨A', B, hA', hB, h₂.skip hmode hhears (hkept.mpr hno)⟩

/-- **The first packet** of the file begins the second run, in which it opens a file for the same
call and under the same path. -/
theorem ReadBack.first (pre : List Input) {callId fn : Bytes}
    (hcall : .dumpOpen callId fn (some f) ∈
      inputCalls o host ((loop o host).run o.start pre) (.packet p))
    (hpath : OpensPath o host callId fn ((loop o host).run o.start pre) p)
    (hfresh : f ∉ pcapFiles.opened ((loop o host).run o.start pre).world.log)
    (hre : Rereadable o f (afterPass ((loop o host).run o.start pre) (.packet p)) p)
    (hr : q.record = p.record) (hopens : ∀ log, host.dumpOpen log fn ≠ none) :
    ∃ g, .dumpOpen callId fn (some g) ∈
        inputCalls o.everyCall host o.everyCall.start (.packet q) ∧
      ReadBack o (keyOf callId) f g
        ((loop o host).next ((loop o host).run o.start pre) (.packet p))
        ((loop o.everyCall host).next o.everyCall.start (.packet q)) := by
  obtain ⟨A₀, hprov, harch₀⟩ := (loop_refines_archive o host).transfer (archived_start o)
    (P := Provenance o) (Provenance.start o) (fun _ _ _ _ h hstep => h.step hstep) pre
  obtain ⟨s, hs⟩ : ∃ s, s = (loop o host).run o.start pre := ⟨_, rfl⟩
  rw [← hs] at hcall hpath hfresh hre harch₀ ⊢
  have harch := harch₀.afterPass (.packet p)
  have hno : ∀ k, (k, f) ∉ (A₀.pass o (.packet p)).opened := by
    intro k hk
    rw [Archive.opened_pass] at hk
    exact hfresh (harch₀.mem_opened hk)
  -- what the message is in the first run
  obtain ⟨A', hA, hA'⟩ := harch.hears host p
  have hlog : .dumpOpen callId fn (some f) ∈
      (dispatch o host p (afterPass s (.packet p))).world.log := by
    have hloop := log_loop o host (a := .packet p) harch.tableInv
    rw [show dispatch o host p (afterPass s (.packet p)) = (loop o host).next s (.packet p)
      from rfl, hloop]
    exact List.mem_append_right _ hcall
  obtain ⟨flows, ssrc, pt, msg, callId₁, datagram, hp, hflows, -, -, rfl⟩ :=
    hA.of_opened (hA'.opened_of_mem hlog) (hno _)
  obtain ⟨ip, msg₁, hb, hid, -, hn, hm, hfn⟩ := hpath
  have hmessage := (messageOf_of_branch hb hid).1
  rw [hp] at hmessage
  obtain rfl : msg = msg₁ := Option.some.inj hmessage
  -- what it is in the second run
  obtain ⟨ssrc', pt', msg', hq, hmsg, -⟩ := reading_message_reread hr hre.captured hre.len
    hre.short hp fun x hx => harch.findFlow_eq_none (hflows x hx)
  have hts : q.ts = p.ts := congrArg Record.ts hr
  obtain ⟨hcalls, hopened, hwritten⟩ := Archive.pass_empty (o := o.everyCall) q
  have hB := (archived_start o.everyCall).afterPass (.packet q)
  have hcnt : (afterPass o.everyCall.start (.packet q)).callSkipCnt = 1 := by
    simp only [afterPass, State.periodicCleanup]
    split <;> rfl
  obtain ⟨g, hg⟩ := opens_of_reading hB hcalls hcnt hq (hmsg.callId.trans hid)
    (by rw [hmsg.numberFilterMatched]; exact hn) (by rw [hmsg.method]; exact hm)
    (by rw [hmsg.fileName, hts]; exact hfn) hopens
  obtain ⟨B', hhB, hB'⟩ := hB.hears host q
  have hlog' : .dumpOpen callId fn (some g) ∈
      (dispatch o.everyCall host q (afterPass o.everyCall.start (.packet q))).world.log := by
    rw [log_dispatch o.everyCall host q hB.tableInv]
    exact List.mem_append_right _ hg
  obtain ⟨_, _, _, _, _, _, hq', -, -, -, rfl⟩ :=
    hhB.of_opened (hB'.opened_of_mem hlog') (by rw [hopened]; exact List.not_mem_nil)
  have hq := (reading_everyCall o q).trans hq
  obtain ⟨-, -, -, hsome, rfl⟩ := Reading.payload.inj (hq.symm.trans hq')
  obtain rfl := Option.some.inj hsome
  exact ⟨g, List.mem_append_right _ hg, _, _, hA', hB', Replays.first (hprov.pass (.packet p)) hno
    hcalls hopened hwritten hmsg hre hr datagram⟩

/-- **What has been dumped is read again.**  The packets that a dumper has been given, which a run
has opened for a call, are the input of a second run, which records every call.  Where these packets
had been captured as far as they were looked at, and the call had not been over when they came, the
second run opens one dumper only, for the same call and under the same path, and gives it the same
records. -/
theorem dumped_read_again (o : Options) (host : Host) (hmode : o.optRtpsave ≠ .rtpEvent)
    (inputs : List Input) {callId fn : Bytes} {f : Handle}
    (hopen : .dumpOpen callId fn (some f) ∈ ((loop o host).run o.start inputs).world.log)
    (hopens : ∀ log, host.dumpOpen log fn ≠ none)
    (hre : ∀ pre p post, inputs = pre ++ .packet p :: post →
      (∃ via r, (via, f, r) ∈ inputDumps o host ((loop o host).run o.start pre) (.packet p)) →
      Rereadable o f (afterPass ((loop o host).run o.start pre) (.packet p)) p)
    (packets : List Packet) (hpackets : packets.map Packet.record =
      ((loop o host).run o.start inputs).world.dumpedTo f) :
    let w := ((loop o.everyCall host).run o.everyCall.start (packets.map Input.packet)).world
    ∃ g, .dumpOpen callId fn (some g) ∈ w.log ∧
      w.log.filterMap IoEvent.openedFor = [(keyOf callId, g)] ∧
      w.written.map Prod.snd =
        (((loop o host).run o.start inputs).world.dumpedTo f).map fun r => (g, r) := by
  intro w
  obtain ⟨pre, a, post, rfl, hcall⟩ := mem_log_run.mp hopen
  obtain ⟨s, hs⟩ : ∃ s, s = (loop o host).run o.start pre := ⟨_, rfl⟩
  have howns : Owns s.world := by
    rw [hs]
    exact owns_run o host pre
  rw [← hs] at hcall
  obtain ⟨p, rfl, hpath, hfresh, i, hdumps⟩ := opens_of_mem_inputCalls howns hcall
  have hp : Rereadable o f (afterPass s (.packet p)) p := by
    have hfirst := hre pre p post rfl
    rw [← hs] at hfirst
    exact hfirst ⟨.sip i, p.terminate.record, by rw [hdumps]; exact List.mem_singleton_self _⟩
  -- what the dumper is given: the first packet, and what comes later
  have hnone : s.world.dumpedTo f = [] := by
    refine dumpedTo_eq_nil ?_ hfresh
    rw [hs]
    exact knownFiles_run o host pre
  have hdumped := dumpedTo_run o host f howns (.packet p :: post)
  rw [hnone, List.nil_append, Machine.collect_cons, fileRecords, hdumps,
    List.filter_cons_of_pos (by simp), hp.record] at hdumped
  have hrun : (loop o host).run o.start (pre ++ .packet p :: post) =
      (loop o host).run s (.packet p :: post) := by
    rw [Machine.run_append, ← hs]
  rw [hrun] at hpackets ⊢
  rw [hdumped] at hpackets
  obtain ⟨q, qs, rfl, hr, hqs⟩ := List.map_eq_cons_iff.mp hpackets
  rw [hs] at hcall hpath hfresh hp
  obtain ⟨g, hg, hfirst⟩ := ReadBack.first pre hcall hpath hfresh hp hr hopens
  rw [← hs] at hfirst
  have hlast := Machine.feed (N := loop o.everyCall host) (i := Input.packet)
    (R := ReadBack o (keyOf callId) f g) hfirst (fun pre' a post' hpost t qs h hqs => ?_) hqs
  · obtain ⟨A, B, hA, hB, h⟩ := hlast
    refine ⟨g, mem_log_run.mpr ⟨[], .packet q, qs.map Input.packet, rfl, hg⟩,
      hB.opened.trans h.reopened, ?_⟩
    have hwritten : w.written.map Prod.snd = B.written := hB.written
    rw [hwritten, h.written, ← hA.written, List.filter_map, List.map_map, World.dumpedTo,
      List.map_map]
    rfl
  · have hpre : (loop o host).run ((loop o host).next s (.packet p)) pre' =
        (loop o host).run o.start (pre ++ .packet p :: pre') := by
      rw [Machine.run_append, ← hs]
      rfl
    refine h.next hmode a (fun p' ha hd => ?_) hqs
    subst ha
    rw [hpre] at hd ⊢
    exact hre _ p' post' (by rw [hpost, List.append_assoc]; rfl) hd

/-- One of two calls.  When its packets are read again, other bytes lie behind them. -/
theorem dumped_read_again_twoCalls :
    let inputs : List Input := [.packet (.captured 1000 (invite "x")),
      .packet (.captured 1001 (invite "y")), .packet (.captured 1002 (media 4000 1))]
    let packets : List Packet := [{ Packet.captured 1000 (invite "x") with beyond := [0x41] },
      { Packet.captured 1002 (media 4000 1) with beyond := [0x42] }]
    let o := Options.raw
    let records := ((loop o Host.numbering).run o.start inputs).world.dumpedTo 1
    let w := ((loop o.everyCall Host.numbering).run o.everyCall.start
      (packets.map Input.packet)).world
    packets.map Packet.record = records ∧
      ∃ g, .dumpOpen (ascii "x") (ascii "x.pcap") (some g) ∈ w.log ∧
        w.log.filterMap IoEvent.openedFor = [(keyOf (ascii "x"), g)] ∧
        w.written.map Prod.snd = records.map fun r => (g, r) := by
  intro inputs packets o records w
  have hpackets : packets.map Packet.record = records := by decide +kernel
  refine ⟨hpackets, dumped_read_again o Host.numbering (by decide) inputs (by decide +kernel)
    (fun _ => Option.some_ne_none _) (fun pre p post heq _ => ?_) packets hpackets⟩
  rcases pre with _ | ⟨a, _ | ⟨b, _ | ⟨c, pre⟩⟩⟩
  · obtain ⟨hp, -⟩ := List.cons.inj heq
    obtain rfl := Input.packet.inj hp
    exact .of_eval (by decide +kernel) (by decide +kernel) (by decide +kernel) (by decide +kernel)
  · obtain ⟨ha, heq₁⟩ := List.cons.inj heq
    obtain ⟨hp, -⟩ := List.cons.inj heq₁
    obtain rfl := Input.packet.inj hp
    subst ha
    exact .of_eval (by decide +kernel) (by decide +kernel) (by decide +kernel) (by decide +kernel)
  · obtain ⟨ha, heq₁⟩ := List.cons.inj heq
    obtain ⟨hb, heq₂⟩ := List.cons.inj heq₁
    obtain ⟨hp, -⟩ := List.cons.inj heq₂
    obtain rfl := Input.packet.inj hp
    subst ha hb
    exact .of_eval (by decide +kernel) (by decide +kernel) (by decide +kernel) (by decide +kernel)
  · obtain ⟨-, heq₁⟩ := List.cons.inj heq
    obtain ⟨-, heq₂⟩ := List.cons.inj heq₁
    obtain ⟨-, heq₃⟩ := List.cons.inj heq₂
    exact absurd heq₃.symm (List.append_ne_nil_of_right_ne_nil pre (List.cons_ne_nil _ _))

end PcapSipDump
