import PcapSipDump.Capture.Isolation
import PcapSipDump.Capture.OpenTriggers

/-!
# The paths of the capture files

A path is expanded into a buffer of 1024 bytes, opened, and stored in a field of 128 bytes.  When
a cleanup pass removes the file or calls the close trigger for it, it takes the path from the
field, which is the path of the file exactly when this fits into the field with its terminator.
-/

namespace PcapSipDump

open Lib Lib.CString

variable {o : Options} {host : Host} {libbsd : Bool} {w : World} {p : Packet} {s : State}

/-! ### The paths that are opened -/

/-- The path is that of a message with this Call-ID in some packet. -/
def IsMessagePath (o : Options) (host : Host) (callId fn : Bytes) : Prop :=
  ∃ (p : Packet) (data : ℕ) (method : Bytes),
    (readSip o p.terminate data method).callId = some callId ∧
      fn = fileName o host (readSip o p.terminate data method) p.ts

lemma World.mem_openings {callId fn : Bytes} {f : Option Handle} :
    .dumpOpen callId fn f ∈ w.openings ↔ .dumpOpen callId fn f ∈ w.log := by
  simp [World.openings, IoEvent.isOpening]

/-- What adding a call opens: nothing, or the file with the path of the message, and then the new
element has what `pcap_dump_open` has returned. -/
lemma dumpOpen_added {msg : SipMessage} {ts : ℤ} {callId : Bytes} (hw : s.world.ct.UnusedZero)
    (he : findOrAdd o host msg ts s = (some s.world.ct.addIdx,
      newCall o host msg callId ts s.world.ct.addIdx { s with
        world := (s.world.add callId msg.caller.toBytes msg.called.toBytes ts).2 })) :
    ∃ opened : Option (Option Handle),
      ((findOrAdd o host msg ts s).2.world.slot s.world.ct.addIdx).fPcap = opened.join ∧
      ∀ callId' fn f, .dumpOpen callId' fn f ∈ (findOrAdd o host msg ts s).2.world.log ↔
        .dumpOpen callId' fn f ∈ s.world.log ∨
          callId' = callId ∧ fn = fileName o host msg ts ∧ opened = some f := by
  obtain ⟨caller, callee, id, hadd⟩ := World.openings_add hw callId msg.caller.toBytes
    msg.called.toBytes ts
  obtain ⟨hu, -, -⟩ := s.world.slot_added callId msg.caller.toBytes msg.called.toBytes ts
  obtain ⟨v, hv⟩ : ∃ v, v = (s.world.add callId msg.caller.toBytes msg.called.toBytes ts).2 :=
    ⟨_, rfl⟩
  rw [he, ← hv]
  rw [← hv] at hadd hu
  have hold : ∀ callId' fn f, .dumpOpen callId' fn f ∈ v.openings ↔
      .dumpOpen callId' fn f ∈ s.world.openings := by
    intro callId' fn f
    rw [hadd]
    simp
  have hnoFile : ∀ callId' fn f, .dumpOpen callId' fn f ∈ (v.noFile s.world.ct.addIdx).openings ↔
      .dumpOpen callId' fn f ∈ s.world.openings := hold
  have hnone : ((v.noFile s.world.ct.addIdx).slot s.world.ct.addIdx).fPcap = none := by
    rw [World.noFile, World.slot_write hu, if_pos rfl]
    rfl
  simp only [← World.mem_openings]
  rcases newCall_cases o host msg callId ts s.world.ct.addIdx { s with world := v } with
    ⟨-, hnew⟩ | ⟨-, -, hnew⟩ | ⟨-, -, hnew⟩ <;> rw [hnew]
  · exact ⟨none, hnone, fun callId' fn f => by simp [hnoFile]⟩
  · exact ⟨none, hnone, fun callId' fn f => by simp [hnoFile]⟩
  · generalize (if 47 ∈ fileName o host msg ts then some (dirname (fileName o host msg ts))
      else none) = dn
    refine ⟨some (host.dumpOpen (v.log ++ (dn.map IoEvent.mkdirP).toList)
      (fileName o host msg ts)), ?_, fun callId' fn' f => ?_⟩
    · exact (World.fPcap_openFile hu host o.libbsd callId _ _ _).trans (if_pos rfl)
    · rw [World.openings_openFile, List.mem_append, hold, List.mem_singleton,
        IoEvent.dumpOpen.injEq, Option.some.injEq, eq_comm (a := f)]

/-- A file that is opened for a message has the path of the message. -/
lemma dumpOpen_findOrAdd (hw : s.world.ct.UnusedZero) {msg : SipMessage} {ts : ℤ}
    {callId fn : Bytes} {f : Option Handle}
    (h : .dumpOpen callId fn f ∈ (findOrAdd o host msg ts s).2.world.log) :
    .dumpOpen callId fn f ∈ s.world.log ∨
      msg.callId = some callId ∧ fn = fileName o host msg ts := by
  rcases findOrAdd_cases o host msg ts s with he | ⟨callId', hid, ⟨i, -, he⟩ | ⟨-, he⟩⟩
  · rw [he] at h
    exact Or.inl h
  · rw [he] at h
    exact Or.inl h
  · obtain ⟨opened, -, hopened⟩ := dumpOpen_added hw he
    refine ((hopened callId fn f).mp h).imp_right ?_
    rintro ⟨rfl, hfn, -⟩
    exact ⟨hid, hfn⟩

lemma dumpOpen_dispatch (hw : s.world.ct.TableInv) {callId fn : Bytes} {f : Option Handle}
    (h : .dumpOpen callId fn f ∈ (dispatch o host p s).world.log) :
    .dumpOpen callId fn f ∈ s.world.log ∨ IsMessagePath o host callId fn := by
  rw [← World.mem_openings] at h
  by_cases hsip : ∃ ip msg, branch o p s.world = .sip ip msg
  · obtain ⟨ip, msg, hb⟩ := hsip
    rw [openings_dispatch_sip host hb] at h
    obtain ⟨-, -, -, -, method, -, rfl⟩ := of_branch_sip hb
    refine (dumpOpen_findOrAdd hw.unusedZero (World.mem_openings.mp h)).imp_right ?_
    rintro ⟨hid, hfn⟩
    exact ⟨p, dataPos p.mem ip, method, hid, hfn⟩
  · rw [openings_dispatch_other host hw fun ip msg hb => hsip ⟨ip, msg, hb⟩] at h
    exact Or.inl (World.mem_openings.mp h)

/-- Every path that the capture loop opens is that of a message. -/
lemma isMessagePath_of_opened (o : Options) (host : Host) (inputs : List Input) {callId fn : Bytes}
    {f : Option Handle}
    (h : .dumpOpen callId fn f ∈ ((loop o host).run o.start inputs).world.log) :
    IsMessagePath o host callId fn := by
  have hinv := Machine.run_invariant (M := loop o host) (P := fun s : State => Owns s.world ∧
    ∀ callId fn f, .dumpOpen callId fn f ∈ s.world.log → IsMessagePath o host callId fn) ?_
    ⟨owns_start o, fun _ _ _ hmem => absurd hmem List.not_mem_nil⟩ inputs
  · exact hinv.2 callId fn f h
  · rintro s a ⟨howns, hpaths⟩
    refine ⟨howns.loop a, fun callId fn f hmem => ?_⟩
    have hpass : .dumpOpen callId fn f ∈ (afterPass s a).world.log →
        .dumpOpen callId fn f ∈ s.world.log := by
      rw [← World.mem_openings, ← World.mem_openings, openings_afterPass]
      exact id
    cases a with
    | packet p =>
      rcases dumpOpen_dispatch (howns.afterPass (.packet p)).tableInv hmem with hold | hpath
      · exact hpaths callId fn f (hpass hold)
      · exact hpath
    | cleanup currtime => exact hpaths callId fn f (hpass hmem)

/-- A path has no NUL. -/
lemma IsMessagePath.nul_free {callId fn : Bytes} (h : IsMessagePath o host callId fn) :
    ∀ c ∈ fn, c ≠ 0 := by
  obtain ⟨p, data, method, -, rfl⟩ := h
  intro c hc
  exact ne_zero_of_mem_cstr hc

/-! ### The path in an element -/

/-- The path in an element with a file is what `strlcpy` has made of the path of the file. -/
structure StoredPaths (libbsd : Bool) (w : World) : Prop where
  tableInv : w.ct.TableInv
  stored : ∀ i f, (w.slot i).fPcap = some f → ∃ callId fn,
    .dumpOpen callId fn (some f) ∈ w.log ∧ ∃ old, (w.slot i).fnPcap = strlcpy libbsd old fn
  once : ∀ f callId callId' fn fn', .dumpOpen callId fn (some f) ∈ w.log →
    .dumpOpen callId' fn' (some f) ∈ w.log → fn' = fn

lemma StoredPaths.next (h : StoredPaths libbsd w) {op : WorldOp}
    (hop : (world host libbsd).allowed w op) :
    StoredPaths libbsd ((world host libbsd).next w op) := by
  refine ⟨tableInv_next hop h.tableInv, ?_, openedOnce_next (g := fun _ fn => fn) h.once⟩
  refine opened_next (R := fun _ fn e => ∃ old, e.fnPcap = strlcpy libbsd old fn) h.tableInv hop
    ?_ ?_ h.stored
  · rintro _ fn e e' hs ⟨old, hpath⟩
    exact ⟨old, hs.fnPcap.trans hpath⟩
  · rintro i callId fn dir f rfl
    exact ⟨(w.slot i).fnPcap, rfl⟩

lemma storedPaths_start (o : Options) : StoredPaths o.libbsd o.start.world := by
  have hfiles := filesOfCalls_start o
  refine ⟨hfiles.tableInv, fun i f hf => ?_, fun f _ _ _ _ hd => absurd hd List.not_mem_nil⟩
  obtain ⟨_, _, hd, -⟩ := hfiles.opened i f hf
  exact absurd hd List.not_mem_nil

/-- In every state of the capture loop the paths are stored like this. -/
lemma storedPaths_run (o : Options) (host : Host) (inputs : List Input) :
    StoredPaths o.libbsd ((loop o host).run o.start inputs).world := by
  refine Machine.run_invariant (P := fun s : State => StoredPaths o.libbsd s.world)
    (fun s a h => ?_) (storedPaths_start o) inputs
  have hpass : ∀ currtime, StoredPaths o.libbsd (s.world.cleanup currtime) := fun currtime =>
    h.next (show (world host o.libbsd).allowed s.world (.cleanup currtime) from trivial)
  exact next_invariant (fun _ hw => hw.tableInv) (fun _ _ _ hop _ hw => hw.next hop)
    (afterPass_invariant h fun currtime _ => hpass currtime)

/-- An element with a file has what `strlcpy` has made of the path under which it was opened. -/
lemma fnPcap_of_opened {inputs : List Input} {i : ℕ} {f : Handle} {callId fn : Bytes}
    (hf : (((loop o host).run o.start inputs).world.slot i).fPcap = some f)
    (hopened : .dumpOpen callId fn (some f) ∈ ((loop o host).run o.start inputs).world.log) :
    ∃ old, (((loop o host).run o.start inputs).world.slot i).fnPcap = strlcpy o.libbsd old fn := by
  have hstored := storedPaths_run o host inputs
  obtain ⟨callId', fn', hd, hpath⟩ := hstored.stored i f hf
  obtain rfl := hstored.once f callId callId' fn fn' hopened hd
  exact hpath

/-- A path of less than 128 bytes is kept. -/
lemma fnPcapStr_of_opened {inputs : List Input} {i : ℕ} {f : Handle} {callId fn : Bytes}
    (hf : (((loop o host).run o.start inputs).world.slot i).fPcap = some f)
    (hopened : .dumpOpen callId fn (some f) ∈ ((loop o host).run o.start inputs).world.log)
    (hfn : fn.length < 128) :
    (((loop o host).run o.start inputs).world.slot i).fnPcapStr = fn := by
  obtain ⟨old, hpath⟩ := fnPcap_of_opened hf hopened
  have hnul := (isMessagePath_of_opened o host inputs hopened).nul_free
  have hcopy := (cstr_strlcpy_eq_iff o.libbsd old (by omega) hnul []).mpr (Or.inl hfn)
  rwa [CalltableElement.fnPcapStr, hpath, ← List.append_nil (strlcpy o.libbsd old fn).toBytes]

/-! ### The path that a pass acts on -/

namespace CalltableElement

/-- The C string at `fn_pcap`, when `behind` lies behind the element in memory. -/
def storedPath (e : CalltableElement) (behind : Bytes) : Bytes := cstr (e.fnPcap.toBytes ++ behind)

/-- The last call that `do_cleanup` makes for an element with a file. -/
def lastCall (eraseNonT38 : Bool) (e : CalltableElement) (behind : Bytes) : IoEvent :=
  if eraseNonT38 && !e.hadT38 then .unlink (e.storedPath behind)
  else .trigger .close (e.storedPath behind) e.callerStr e.calleeStr e.callIdStr e.firstPacketTime

lemma closeEvents_eq {e : CalltableElement} {f : Handle} (hf : e.fPcap = some f)
    (eraseNonT38 : Bool) :
    e.closeEvents eraseNonT38 = [.flush f, .close f, e.lastCall eraseNonT38 []] := by
  have hpath : e.storedPath [] = e.fnPcapStr := by rw [storedPath, List.append_nil, fnPcapStr]
  rw [closeEvents_some hf, lastCall, hpath]
  rfl

end CalltableElement

/-- The path that a pass removes or calls the close trigger for. -/
def IoEvent.closedPath : IoEvent → Option Bytes
  | .unlink fn => some fn
  | .trigger .close fn _ _ _ _ => some fn
  | _ => none

lemma closedPath_lastCall (eraseNonT38 : Bool) (e : CalltableElement) (behind : Bytes) :
    (e.lastCall eraseNonT38 behind).closedPath = some (e.storedPath behind) := by
  rw [CalltableElement.lastCall]
  split <;> rfl

/-- **The file that a pass acts on.**  In every run, an element has been given its file by
`pcap_dump_open(fn)`.  When a pass closes it, the path that is passed to `unlink` or to the close
trigger is `fn` if and only if `fn` has less than 128 bytes, or `strlcpy` is `strncpy` and the
memory behind the element happens to go on like `fn`. -/
theorem cleanup_path_iff (o : Options) (host : Host) (inputs : List Input) (i : ℕ) (f : Handle)
    (callId fn behind : Bytes)
    (hf : (((loop o host).run o.start inputs).world.slot i).fPcap = some f)
    (hopened : .dumpOpen callId fn (some f) ∈ ((loop o host).run o.start inputs).world.log) :
    let w := ((loop o host).run o.start inputs).world
    (w.slot i).closeEvents w.ct.eraseNonT38 =
        [.flush f, .close f, (w.slot i).lastCall w.ct.eraseNonT38 []] ∧
      (((w.slot i).lastCall w.ct.eraseNonT38 behind).closedPath = some fn ↔
        fn.length < 128 ∨ o.libbsd = false ∧ 128 ≤ fn.length ∧ cstr behind = fn.drop 128) := by
  intro w
  obtain ⟨old, hpath⟩ : ∃ old, (w.slot i).fnPcap = strlcpy o.libbsd old fn :=
    fnPcap_of_opened hf hopened
  refine ⟨CalltableElement.closeEvents_eq hf _, ?_⟩
  rw [closedPath_lastCall, Option.some_inj, CalltableElement.storedPath, hpath]
  exact cstr_strlcpy_eq_iff o.libbsd old (by omega)
    (isMessagePath_of_opened o host inputs hopened).nul_free behind

/-- The file of a short path. -/
theorem cleanup_path_short :
    let w := ((loop Options.raw Host.numbering).run Options.raw.start
      [.packet (.captured 1000 (invite "x"))]).world
    ((w.slot 0).lastCall w.ct.eraseNonT38 []).closedPath = some (ascii "x.pcap") :=
  (cleanup_path_iff Options.raw Host.numbering [.packet (.captured 1000 (invite "x"))] 0 1
    (ascii "x") (ascii "x.pcap") [] (by decide +kernel) (by decide +kernel)).2.mpr
    (Or.inl (by decide +kernel))

/-- A template with a directory name of 130 bytes. -/
def Options.deep : Options :=
  { Options.raw with optFntemplate := ascii "/" ++ List.replicate 130 100 ++ ascii "/%i.pcap" }

/-- The path that the pass acts on is cut off inside the name of the directory. -/
theorem cleanup_path_false :
    ¬∀ (o : Options) (host : Host) (inputs : List Input) (i : ℕ) (f : Handle)
      (callId fn behind : Bytes),
      let w := ((loop o host).run o.start inputs).world
      (w.slot i).fPcap = some f → .dumpOpen callId fn (some f) ∈ w.log → fn.length < 1024 →
        ((w.slot i).lastCall w.ct.eraseNonT38 behind).closedPath = some fn := by
  intro h
  have hpath := h Options.deep Host.numbering [.packet (.captured 1000 (invite "x"))] 0 1
    (ascii "x") (ascii "/" ++ List.replicate 130 100 ++ ascii "/x.pcap") []
    (by decide +kernel) (by decide +kernel) (by decide +kernel)
  exact absurd hpath (by decide +kernel)

end PcapSipDump
