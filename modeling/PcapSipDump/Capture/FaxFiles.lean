import PcapSipDump.Capture.ArchiveRefinement
import PcapSipDump.Capture.FilePaths

/-!
# The files of `-R t38`

When a pass finishes a call, its file is removed with `-R t38` and kept otherwise, unless the call
has been a fax: then it is kept in both cases.  A call has been a fax when some message of it since
it was added announced T.38 (`fax_files_kept`).  What the call was that had the element before, and
what other calls have announced, is without effect.  The path of the file has to fit the element:
otherwise the pass removes another path.
-/

namespace PcapSipDump

open Lib Lib.CString Calltable

variable {o : Options} {host : Host} {s : State} {a : Input} {i : ℕ}

/-- The input is a message of the call in the element with index `i` that announces T.38. -/
def AnnouncesT38 (o : Options) (host : Host) (i : ℕ) (s : State) (a : Input) : Prop :=
  ∃ p ip msg, a = .packet p ∧ branch o p (afterPass s a).world = .sip ip msg ∧
    (findOrAdd o host msg p.ts (afterPass s a)).1 = some i ∧ msg.body.any ElementWrite.isT38

lemma hadT38_foldl {es : List ElementWrite} (hes : ∀ w ∈ es, w.IsSip) (e : CalltableElement) :
    (es.foldl (fun e w => w.apply e) e).hadT38 = (e.hadT38 || es.any ElementWrite.isT38) := by
  induction es generalizing e with
  | nil => exact (Bool.or_false _).symm
  | cons w es ih =>
    have hw : (w.apply e).hadT38 = (e.hadT38 || w.isT38) := by
      rcases (hes w List.mem_cons_self).cases with rfl | ⟨pt, rfl⟩ | rfl | ⟨addr, port, rfl⟩
      · exact (Bool.or_false _).symm
      · exact (Bool.or_false _).symm
      · exact (Bool.or_true _).symm
      · exact (e.addIpPort_frame (fun e => e.hadT38) (fun _ _ _ _ => rfl) addr port).trans
          (Bool.or_false _).symm
    rw [List.foldl_cons, ih (fun w' hw' => hes w' (List.mem_cons_of_mem _ hw')), hw, List.any_cons,
      Bool.or_assoc]

lemma SipMessage.any_writes_isT38 (msg : SipMessage) :
    msg.writes.any ElementWrite.isT38 = msg.body.any ElementWrite.isT38 := by
  rw [writes, List.any_append]
  split <;> rfl

/-- **What an input does to `had_t38`** of an element. -/
lemma hadT38_next (o : Options) (host : Host) (hs : s.world.ct.TableInv) :
    (((loop o host).next s a).world.slot i).hadT38 ↔
      AnnouncesT38 o host i s a ∨ ¬Frees i s a ∧ (s.world.slot i).hadT38 := by
  have hpass : ((afterPass s a).world.slot i).hadT38 ↔
      ¬Frees i s a ∧ (s.world.slot i).hadT38 := by
    rcases slot_afterPass s a i with ⟨hfree, he⟩ | ⟨hfree, he⟩
    · rw [he]
      exact ⟨fun h => ⟨hfree, h⟩, fun h => h.2⟩
    · rw [he]
      exact ⟨fun h => absurd h (by decide), fun h => absurd hfree h.1⟩
  rw [← hpass]
  cases a with
  | cleanup T =>
    refine ⟨Or.inr, fun h => h.elim ?_ id⟩
    rintro ⟨p, ip, msg, hcl, -⟩
    cases hcl
  | packet p =>
    have hinv : (afterPass s (.packet p)).world.ct.TableInv :=
      afterPass_invariant (P := fun v : World => v.ct.TableInv) hs fun T _ => hs.doCleanup T
    have hnext : (loop o host).next s (.packet p) =
        dispatch o host p (afterPass s (.packet p)) := rfl
    unfold AnnouncesT38
    rw [hnext]
    obtain ⟨t, ht⟩ : ∃ t, t = afterPass s (.packet p) := ⟨_, rfl⟩
    rw [← ht] at hinv ⊢
    rw [dispatch_eq]
    -- only messages announce anything
    have hother : (∀ ip msg, branch o p t.world ≠ .sip ip msg) →
        (((branch o p t.world).run o host p t).world.slot i).hadT38 = (t.world.slot i).hadT38 →
        ((((branch o p t.world).run o host p t).world.slot i).hadT38 ↔
          (∃ q ip msg, Input.packet p = .packet q ∧ branch o q t.world = .sip ip msg ∧
            (findOrAdd o host msg q.ts t).1 = some i ∧ msg.body.any ElementWrite.isT38) ∨
          (t.world.slot i).hadT38) := by
      intro hno hsame
      rw [hsame]
      refine ⟨Or.inr, fun h => h.elim ?_ id⟩
      rintro ⟨q, ip, msg, hq, hb, -⟩
      cases hq
      exact absurd hb (hno ip msg)
    rcases hb : branch o p t.world with _ | ⟨aai, last⟩ | ⟨ip, f⟩ | ⟨ip, msg⟩ <;> rw [hb] at hother
    · exact hother (fun _ _ => Branch.noConfusion) rfl
    · refine hother (fun _ _ => Branch.noConfusion) ?_
      simp only [Branch.run, World.slot, Calltable.slot, World.table_fragment]
    · refine hother (fun _ _ => Branch.noConfusion) ?_
      obtain ⟨-, -, -, hfound⟩ := of_branch_rtp hb
      obtain ⟨es, hes, hslot⟩ := slot_rtpBranch (o := o) hinv.unusedZero hfound
      simp only [Branch.run, hslot]
      split
      · rcases hes with rfl | rfl <;> rfl
      · rfl
    · have hsip := SipMessage.isSip_writes (body_of_branch_sip hb)
      have hused := used_findOrAdd o host msg p.ts hinv
      have hslot := slot_findOrAdd o host msg p.ts t i
      -- an element that is taken has announced nothing
      have hfind : ((findOrAdd o host msg p.ts t).2.world.slot i).hadT38 =
          (t.world.slot i).hadT38 := by
        rcases hslot with hslot | ⟨callId, f, fnPcap, -, -, hidx, -, -, hslot⟩
        · rw [hslot]
        · have hzero : t.world.slot i = CalltableElement.zero := by
            rw [hidx]
            exact hinv.unusedZero _ t.world.ct.isUsed_addIdx
          rw [hslot, hzero]
          rfl
      have hiff : (∃ q ip' msg', Input.packet p = .packet q ∧ branch o q t.world = .sip ip' msg' ∧
          (findOrAdd o host msg' q.ts t).1 = some i ∧ msg'.body.any ElementWrite.isT38) ↔
          (findOrAdd o host msg p.ts t).1 = some i ∧ msg.body.any ElementWrite.isT38 := by
        constructor
        · rintro ⟨q, ip', msg', hq, hb', hi, hany⟩
          cases hq
          obtain ⟨-, rfl⟩ := Branch.sip.inj (hb.symm.trans hb')
          exact ⟨hi, hany⟩
        · rintro ⟨hi, hany⟩
          exact ⟨p, ip, msg, rfl, hb, hi, hany⟩
      rw [hiff]
      rcases heq : findOrAdd o host msg p.ts t with ⟨_ | k, t'⟩
      · rw [heq] at hfind
        simp only [Branch.run, heq, reduceCtorEq, false_and, false_or]
        exact iff_of_eq (congrArg (· = true) hfind)
      · rw [heq] at hfind hused
        simp only [Branch.run, heq, slot_sipCall (hused k rfl), Option.some.injEq]
        by_cases hik : i = k
        · rw [if_pos hik, hadT38_foldl hsip, SipMessage.any_writes_isT38, hfind, Bool.or_eq_true]
          exact ⟨fun h => h.symm.imp (fun h => ⟨hik.symm, h⟩) id,
            fun h => h.symm.imp id fun h => h.2⟩
        · rw [if_neg hik]
          refine ⟨fun h => Or.inr (hfind ▸ h), fun h => h.elim (fun h => absurd h.1.symm hik) ?_⟩
          exact fun h => hfind.symm ▸ h

lemma settings_run (o : Options) (host : Host) (inputs : List Input) :
    ((loop o host).run o.start inputs).world.ct.TableInv ∧
      ((loop o host).run o.start inputs).world.ct.eraseNonT38 = o.optT38only := by
  refine Machine.run_invariant (M := loop o host) (P := fun s : State =>
    s.world.ct.TableInv ∧ s.world.ct.eraseNonT38 = o.optT38only) ?_ ⟨tableInv_start o, rfl⟩ inputs
  rintro s a ⟨hs, ht⟩
  refine next_invariant (P := fun v : World => v.ct.TableInv ∧ v.ct.eraseNonT38 = o.optT38only)
    (fun _ hv => hv.1) ?_ (afterPass_invariant (P := fun v : World =>
      v.ct.TableInv ∧ v.ct.eraseNonT38 = o.optT38only) ⟨hs, ht⟩ fun T _ => ⟨hs.doCleanup T, ht⟩)
  rintro v op p hop - ⟨hv, hvt⟩
  exact ⟨tableInv_next hop hv, (settings_next op).2.trans hvt⟩

/-- **Which files are removed.**  The pass that frees the element of a call with a file, which was
opened under a path that fits the element, flushes and closes the file.  Then it removes this path,
exactly with `-R t38` and when no message since the element was last freed has announced T.38;
otherwise it fires the close triggers for it. -/
theorem fax_files_kept (o : Options) (host : Host) (inputs : List Input) (a : Input) {i : ℕ}
    {f : Handle} {callId fn : Bytes} (hfree : Frees i ((loop o host).run o.start inputs) a)
    (hf : (((loop o host).run o.start inputs).world.slot i).fPcap = some f)
    (hopened : .dumpOpen callId fn (some f) ∈ ((loop o host).run o.start inputs).world.log)
    (hfn : fn.length < 128) :
    let e := ((loop o host).run o.start inputs).world.slot i
    ∃ before last after, passCalls ((loop o host).run o.start inputs) a =
        before ++ [.flush f, .close f, last] ++ after ∧
      (last = .unlink fn ∨ last = .trigger .close fn e.callerStr e.calleeStr e.callIdStr
        e.firstPacketTime) ∧
      (last = .unlink fn ↔ o.optT38only ∧
        ¬(loop o host).Since (AnnouncesT38 o host i) (Frees i) o.start inputs) := by
  intro e
  obtain ⟨hinv, hsettings⟩ := settings_run o host inputs
  obtain ⟨T, hT, hdue⟩ := hfree
  obtain ⟨before, after, hcalls, -⟩ := doCleanup_finishes (owns_run o host inputs) hdue hf
  rw [hsettings] at hcalls
  have hsince : e.hadT38 ↔
      (loop o host).Since (AnnouncesT38 o host i) (Frees i) o.start inputs := by
    have hrun := Machine.run_iff_since (M := loop o host)
      (P := fun s : State => (s.world.slot i).hadT38) (I := fun s : State => s.world.ct.TableInv)
      (W := AnnouncesT38 o host i) (T := Frees i)
      (fun s a _ hs => next_invariant (P := fun v : World => v.ct.TableInv) (fun _ hv => hv)
        (fun _ _ _ hop _ hv => tableInv_next hop hv)
        (afterPass_invariant (P := fun v : World => v.ct.TableInv) hs fun T _ => hs.doCleanup T))
      (fun s a _ hs => hadT38_next o host hs) (legal_loop o host o.start inputs) (tableInv_start o)
    rw [hrun]
    refine ⟨fun h => h.elim id fun h => ?_, Or.inl⟩
    have hstart : o.start.world.slot i = CalltableElement.zero := slot_create _ _ i
    rw [hstart] at h
    exact absurd h.2 (by decide)
  have hpath : e.fnPcapStr = fn := fnPcapStr_of_opened hf hopened hfn
  have hcases := e.finishEvent_cases o.optT38only
  rw [CalltableElement.triggerEvent, hpath] at hcases
  refine ⟨before, e.finishEvent o.optT38only, after, ?_, hcases, ?_⟩
  · rw [passCalls, hT]
    exact hcalls
  · rw [← hpath, ← hsince, CalltableElement.finishEvent]
    by_cases hcond : o.optT38only && !e.hadT38
    · rw [if_pos hcond]
      simpa using hcond
    · rw [if_neg hcond]
      simp only [CalltableElement.triggerEvent, reduceCtorEq, false_iff]
      simpa using hcond

/-- A call without T.38, and the pass that removes its file. -/
theorem fax_files_kept_audio :
    let o : Options := { Options.raw with optT38only := true }
    let inputs : List Input := [.packet (.captured 1000 (invite "x"))]
    let e := ((loop o Host.numbering).run o.start inputs).world.slot 0
    ∃ before last after, passCalls ((loop o Host.numbering).run o.start inputs) (.cleanup 2000) =
        before ++ [.flush 1, .close 1, last] ++ after ∧
      (last = .unlink (ascii "x.pcap") ∨ last = .trigger .close (ascii "x.pcap") e.callerStr
        e.calleeStr e.callIdStr e.firstPacketTime) ∧
      (last = .unlink (ascii "x.pcap") ↔ o.optT38only ∧
        ¬(loop o Host.numbering).Since (AnnouncesT38 o Host.numbering 0) (Frees 0) o.start
          inputs) := by
  intro o inputs e
  have hopened : .dumpOpen (ascii "x") (ascii "x.pcap") (some 1) ∈
      ((loop o Host.numbering).run o.start inputs).world.log := by decide +kernel
  exact fax_files_kept o Host.numbering inputs (.cleanup 2000) (i := 0)
    ⟨2000, rfl, by decide +kernel⟩ (by decide +kernel) hopened (by decide)

end PcapSipDump
