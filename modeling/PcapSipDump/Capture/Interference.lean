import PcapSipDump.Capture.Durability
import PcapSipDump.Capture.Provenance

/-!
# Calls do not interfere

With `-R none` only messages are recorded, and later fragments of them.  A message is attributed by
its Call-ID.  Which messages of a call are dumped then depends on its own messages and on the times
of all packets, but not on what the other packets are: another call cannot keep a message from being
dumped, or make the call expire (`signalling_noninterference`).  Later fragments are left out here,
since they are attributed by a key that other datagrams may have.  The settings are those with which
every call is recorded: with `-l` greater than 1 the other calls decide by their number whether a
call is.
-/

namespace PcapSipDump

open Lib Lib.CString Lib.SlotTable Calltable

variable {o : Options} {host : Host} {p : Packet} {s t : State} {k : CallKey} {ct ct' : Calltable}

/-! ### What is observed -/

/-- What the recording of a call depends on: whether it has a file, and its times. -/
structure CallView where
  recorded : Bool
  first : ℤ
  last : ℤ
deriving DecidableEq

/-- The view of the call in an element. -/
def CalltableElement.view (e : CalltableElement) : CallView :=
  ⟨e.fPcap.isSome, e.firstPacketTime, e.lastPacketTime⟩

/-- The view of the current call with the key. -/
def callView (k : CallKey) (ct : Calltable) : Option CallView :=
  (ct.table.find? fun e => e.isUsed && e.key = k).map CalltableElement.view

/-- The messages that are dumped for the call with the key when the packet comes. -/
def messagesFor (o : Options) (host : Host) (k : CallKey) (p : Packet) (s : State) : List Record :=
  ((branch o p s.world).dumps o host p s).filterMap fun d =>
    match d.1 with
    | .sip i => if ((dispatch o host p s).world.slot i).key = k then some d.2.2 else none
    | _ => none

/-- The messages that are dumped for the call with the key at an input. -/
def dumpedMessages (o : Options) (host : Host) (k : CallKey) (s : State) : Input → List Record
  | .packet p => messagesFor o host k p (afterPass s (.packet p))
  | .cleanup _ => []

/-- The inputs are the same to the call with the key: two packets that are no messages of it differ
in their times only. -/
inductive SameFor (o : Options) (k : CallKey) : Input → Input → Prop where
  | same (a : Input) : SameFor o k a a
  | other {p q : Packet} (hts : p.ts = q.ts) (hp : ∀ msg, ¬MessageOf o k p msg)
      (hq : ∀ msg, ¬MessageOf o k q msg) : SameFor o k (.packet p) (.packet q)

/-! ### The view of a call -/

lemma callView_eq_some_iff (h : ct.TableInv) {v : CallView} : callView k ct = some v ↔
    ∃ i, (ct.slot i).isUsed ∧ (ct.slot i).key = k ∧ (ct.slot i).view = v := by
  rw [callView, Option.map_eq_some_iff]
  constructor
  · rintro ⟨e, he, hv⟩
    have hp := List.find?_some he
    rw [Bool.and_eq_true, decide_eq_true_eq] at hp
    obtain ⟨i, -, rfl⟩ := exists_at_of_mem CalltableElement.zero (List.mem_of_find?_eq_some he)
    exact ⟨i, hp.1, hp.2, hv⟩
  · rintro ⟨i, hu, hk, hv⟩
    have hmem : ct.slot i ∈ ct.table := at_mem _ (lt_length_of_used hu)
    rcases hfind : ct.table.find? fun e => e.isUsed && e.key = k with _ | e
    · have hno := List.find?_eq_none.mp hfind _ hmem
      rw [hu, hk] at hno
      exact absurd (by simp) hno
    · have hp := List.find?_some hfind
      rw [Bool.and_eq_true, decide_eq_true_eq] at hp
      obtain ⟨j, -, rfl⟩ := exists_at_of_mem CalltableElement.zero (List.mem_of_find?_eq_some hfind)
      obtain rfl : j = i := h.uniqueKeys j i hp.1 hu (hp.2.trans hk.symm)
      exact ⟨_, hfind, hv⟩

lemma callView_eq_none_iff (h : ct.TableInv) : callView k ct = none ↔
    ∀ i, (ct.slot i).isUsed → (ct.slot i).key ≠ k := by
  rw [Option.eq_none_iff_forall_ne_some]
  constructor
  · exact fun hno i hu hk => hno _ ((callView_eq_some_iff h).mpr ⟨i, hu, hk, rfl⟩)
  · intro hno v hv
    obtain ⟨i, hu, hk, -⟩ := (callView_eq_some_iff h).mp hv
    exact hno i hu hk

/-- The view is the same where the elements of the call are. -/
lemma callView_congr (h : ct.TableInv) (h' : ct'.TableInv)
    (hsame : ∀ i, ((ct'.slot i).isUsed ∧ (ct'.slot i).key = k) ∨
      ((ct.slot i).isUsed ∧ (ct.slot i).key = k) → ct'.slot i = ct.slot i) :
    callView k ct' = callView k ct := by
  apply Option.ext
  intro v
  rw [callView_eq_some_iff h', callView_eq_some_iff h]
  constructor
  · rintro ⟨i, hu, hk, hv⟩
    have hslot := hsame i (Or.inl ⟨hu, hk⟩)
    rw [hslot] at hu hk hv
    exact ⟨i, hu, hk, hv⟩
  · rintro ⟨i, hu, hk, hv⟩
    have hslot := hsame i (Or.inr ⟨hu, hk⟩)
    rw [← hslot] at hu hk hv
    exact ⟨i, hu, hk, hv⟩

/-- A pass frees the call by its view. -/
lemma callView_doCleanup (h : ct.TableInv) (T : ℤ) : callView k (ct.doCleanup T).1 =
    (callView k ct).filter fun v =>
      !(decide (T - v.last > 300) || decide (T - v.first > ct.optAbsoluteTimeout)) := by
  have hdue : ∀ i, (ct.slot i).isUsed → ct.due T (ct.slot i) =
      (decide (T - (ct.slot i).view.last > 300) ||
        decide (T - (ct.slot i).view.first > ct.optAbsoluteTimeout)) := by
    intro i hu
    rw [Calltable.due, CalltableElement.expired, hu, Bool.true_and]
    rfl
  apply Option.ext
  intro v
  rw [callView_eq_some_iff (h.doCleanup T), Option.filter_eq_some_iff, callView_eq_some_iff h]
  constructor
  · rintro ⟨i, hu, hk, rfl⟩
    obtain ⟨hno, hsame⟩ := slot_of_used_doCleanup hu
    rw [hsame] at hu hk ⊢
    rw [hdue i hu] at hno
    exact ⟨⟨i, hu, hk, rfl⟩, by simpa using hno⟩
  · rintro ⟨⟨i, hu, hk, rfl⟩, hno⟩
    have hslot : (ct.doCleanup T).1.slot i = ct.slot i := by
      rw [slot_doCleanup, if_neg]
      rw [hdue i hu]
      simpa using hno
    exact ⟨i, by rw [hslot]; exact hu, by rw [hslot]; exact hk, by rw [hslot]⟩

/-! ### What a message does -/

/-- With `-R none` nothing is looked up by its addresses. -/
lemma rtpLookup_of_none (hmode : o.optRtpsave = .none) (ip : ℕ) (w : World) :
    rtpLookup o p.mem ip w = (none, w) := by
  rw [rtpLookup, if_pos hmode]

/-- The element of the call of a message is the only one that the message changes. -/
lemma slots_of_message (hs : s.world.ct.TableInv) {ip i : ℕ} {msg : SipMessage}
    (hb : branch o p s.world = .sip ip msg) (hi : (findOrAdd o host msg p.ts s).1 = some i) :
    (∀ j, j ≠ i → (dispatch o host p s).world.slot j = s.world.slot j) ∧
      (dispatch o host p s).world.slot i = msg.writes.foldl (fun e w => w.apply e)
        ((findOrAdd o host msg p.ts s).2.world.slot i) := by
  have hused := used_findOrAdd o host msg p.ts hs i hi
  have hslot : ∀ j, (dispatch o host p s).world.slot j =
      if j = i then msg.writes.foldl (fun e w => w.apply e)
        ((findOrAdd o host msg p.ts s).2.world.slot j)
      else (findOrAdd o host msg p.ts s).2.world.slot j := by
    intro j
    rw [dispatch_sip hb (Prod.ext hi rfl)]
    exact slot_sipCall hused j
  refine ⟨fun j hj => ?_, (hslot i).trans (if_pos rfl)⟩
  rw [hslot, if_neg hj]
  rcases slot_findOrAdd o host msg p.ts s j with h | ⟨_, _, _, -, -, -, hj', -, -⟩
  · exact h
  · exact absurd (Option.some.inj (hj'.symm.trans hi)) hj

/-- The key of the element that a message has changed is that of the message. -/
lemma key_of_message (hs : s.world.ct.TableInv) {ip i : ℕ} {msg : SipMessage} {callId : Bytes}
    (hb : branch o p s.world = .sip ip msg) (hid : msg.callId = some callId)
    (hi : (findOrAdd o host msg p.ts s).1 = some i) :
    ((dispatch o host p s).world.slot i).isUsed ∧
      ((dispatch o host p s).world.slot i).key = keyOf callId := by
  obtain ⟨hu, hk⟩ := key_findOrAdd o host p.ts hs hid hi
  have hsame := SameCall.foldl_apply (ElementWrite.IsSip.ne_file
    (SipMessage.isSip_writes (body_of_branch_sip hb)))
    ((findOrAdd o host msg p.ts s).2.world.slot i)
  rw [(slots_of_message hs hb hi).2]
  exact ⟨hsame.isUsed.trans hu, hsame.key.trans hk⟩

/-- The view of a call after one of its messages. -/
def CallView.hear (o : Options) (msg : SipMessage) (ts : ℤ) : Option CallView → Option CallView
  | some v => some v
  | none =>
      if numberFilterMatched o msg then some ⟨o.methodFilter msg.method, ts, ts⟩ else none

/-- With `-R none` a packet with a message takes the SIP branch. -/
lemma branch_of_messageOf (hmode : o.optRtpsave = .none) {msg : SipMessage}
    (h : MessageOf o k p msg) (w : World) : ∃ ip, branch o p w = .sip ip msg := by
  rcases branch_reading o p w with ⟨hr, -⟩ | ⟨aai, last, hr, -⟩ | ⟨ip, message, hr, hb⟩
  · have hm := h.1
    rw [hr] at hm
    cases hm
  · have hm := h.1
    rw [hr] at hm
    cases hm
  · have hm := h.1
    rw [hr] at hm
    obtain rfl : message = some msg := hm
    rcases hb with ⟨f, hf, -⟩ | ⟨-, ⟨hno, -⟩ | ⟨msg', hmsg', hb⟩⟩
    · rw [rtpLookup_of_none hmode] at hf
      cases hf
    · cases hno
    · obtain rfl := Option.some.inj hmsg'
      exact ⟨ip, hb⟩

/-- With `-R none` a packet takes the SIP branch with its message. -/
lemma messageOf_of_branch {ip : ℕ} {msg : SipMessage} {callId : Bytes} {w : World}
    (hb : branch o p w = .sip ip msg) (hid : msg.callId = some callId) :
    MessageOf o (keyOf callId) p msg := by
  refine ⟨?_, by rw [hid]; rfl⟩
  rcases branch_reading o p w with ⟨-, hb'⟩ | ⟨aai, last, -, hb'⟩ | ⟨ip', message, hr,
    ⟨f, -, hb'⟩ | ⟨-, ⟨-, hb'⟩ | ⟨msg', rfl, hb'⟩⟩⟩
  · cases hb.symm.trans hb'
  · cases hb.symm.trans hb'
  · cases hb.symm.trans hb'
  · cases hb.symm.trans hb'
  · obtain ⟨-, rfl⟩ := Branch.sip.inj (hb.symm.trans hb')
    rw [hr]
    rfl

/-- **Other packets** leave the call alone. -/
lemma callView_dispatch_other (hmode : o.optRtpsave = .none) (host : Host)
    (hs : s.world.ct.TableInv) (hno : ∀ msg, ¬MessageOf o k p msg) :
    callView k (dispatch o host p s).world.ct = callView k s.world.ct ∧
      messagesFor o host k p s = [] := by
  have hinv := tableInv_dispatch o host p hs
  rcases hb : branch o p s.world with _ | ⟨aai, last⟩ | ⟨ip, f⟩ | ⟨ip, msg⟩
  · rw [messagesFor, hb, dispatch_eq, hb]
    exact ⟨rfl, rfl⟩
  · refine ⟨?_, ?_⟩
    · rw [dispatch_eq, hb]
      simp only [callView, Branch.run, World.table_fragment]
    · rw [messagesFor, hb, List.filterMap_eq_nil_iff]
      intro d hd
      obtain ⟨g, -, rfl⟩ := List.mem_map.mp hd
      rfl
  · obtain ⟨-, -, -, hfound⟩ := of_branch_rtp hb
    rw [rtpLookup_of_none hmode] at hfound
    cases hfound
  · rcases hi : (findOrAdd o host msg p.ts s).1 with _ | i
    · -- the message has no call
      have hkept : (findOrAdd o host msg p.ts s).2 = s := by
        rcases findOrAdd_cases o host msg p.ts s with he | ⟨callId, -, ⟨j, -, he⟩ | ⟨-, he⟩⟩
        · rw [he]
        · rw [he] at hi
          cases hi
        · rw [he] at hi
          cases hi
      have hpair : findOrAdd o host msg p.ts s = (none, s) := Prod.ext hi hkept
      refine ⟨?_, ?_⟩
      · rw [dispatch_eq, hb]
        simp only [Branch.run, hpair]
      · simp only [messagesFor, hb, Branch.dumps, hpair, List.filterMap_nil]
    · rcases hid : msg.callId with _ | callId
      · simp only [findOrAdd, hid] at hi
        cases hi
      obtain ⟨hother, -⟩ := slots_of_message hs hb hi
      obtain ⟨hu, hkey⟩ := key_of_message hs hb hid hi
      have hne : keyOf callId ≠ k := fun heq => hno msg (heq ▸ messageOf_of_branch hb hid)
      refine ⟨callView_congr hs hinv fun j hj => ?_, ?_⟩
      · by_cases hji : j = i
        · -- before, the element of the message was that of its call or in no use
          exfalso
          rw [hji] at hj
          rcases hj with ⟨-, hk⟩ | ⟨hu', hk⟩
          · exact hne (hkey.symm.trans hk)
          · rcases findOrAdd_cases o host msg p.ts s with
              he | ⟨callId', hid', ⟨j', hf, he⟩ | ⟨hf, he⟩⟩
            · rw [he] at hi
              cases hi
            · rw [he] at hi
              obtain rfl := Option.some.inj hi
              obtain rfl := Option.some.inj (hid'.symm.trans hid)
              exact hne ((hs.findByCallId_eq_some_iff.mp hf).2.symm.trans hk)
            · rw [he] at hi
              obtain rfl := Option.some.inj hi
              rw [s.world.ct.isUsed_addIdx] at hu'
              exact absurd hu' (by decide)
        · exact hother j hji
      · rw [messagesFor, hb, List.filterMap_eq_nil_iff]
        intro d hd
        have hpair : findOrAdd o host msg p.ts s = (some i, (findOrAdd o host msg p.ts s).2) :=
          Prod.ext hi rfl
        simp only [Branch.dumps] at hd
        rw [hpair] at hd
        obtain ⟨g, -, rfl⟩ := List.mem_map.mp hd
        dsimp only
        rw [if_neg]
        rw [hkey]
        exact hne

/-- The settings with which every call is recorded whose method matches. -/
structure RecordsMatching (o : Options) (host : Host) : Prop where
  everyCall : o.optCallSkipN = 1
  dumpOpen_ne : ∀ log fn, host.dumpOpen log fn ≠ none

/-- A new call has a file exactly when the method matches. -/
lemma RecordsMatching.newCall (h : RecordsMatching o host) (hcnt : s.callSkipCnt = 1)
    (msg : SipMessage) (callId : Bytes) (ts : ℤ) {i : ℕ} (hu : (s.world.slot i).isUsed) :
    ((PcapSipDump.newCall o host msg callId ts i s).world.slot i).fPcap.isSome =
      o.methodFilter msg.method := by
  rcases newCall_cases o host msg callId ts i s with ⟨hno, he⟩ | ⟨-, hskip, -⟩ | ⟨hyes, -, he⟩
  · have hno' : o.methodFilter msg.method = false := by simpa using hno
    rw [he, World.noFile, World.slot_write hu, if_pos rfl, hno']
    rfl
  · omega
  · rw [he, World.fPcap_openFile hu, if_pos rfl, hyes]
    exact Option.isSome_iff_ne_none.mpr (h.dumpOpen_ne _ _)

/-- **A message of the call** is recorded if the call is. -/
lemma callView_dispatch_message (hmode : o.optRtpsave = .none) (h : RecordsMatching o host)
    (hcnt : s.callSkipCnt = 1) (hs : s.world.ct.TableInv) {msg : SipMessage}
    (hmsg : MessageOf o k p msg) :
    callView k (dispatch o host p s).world.ct =
        CallView.hear o msg p.ts (callView k s.world.ct) ∧
      messagesFor o host k p s =
        if (CallView.hear o msg p.ts (callView k s.world.ct)).any CallView.recorded then
          [p.terminate.record] else [] := by
  have hinv := tableInv_dispatch o host p hs
  obtain ⟨ip, hb⟩ := branch_of_messageOf hmode hmsg s.world
  obtain ⟨callId, hid, rfl⟩ := Option.map_eq_some_iff.mp hmsg.2
  have hsip := SipMessage.isSip_writes (body_of_branch_sip hb)
  -- what is observed of the element of the call, once it is there
  have hview : ∀ i t, findOrAdd o host msg p.ts s = (some i, t) →
      callView (keyOf callId) (dispatch o host p s).world.ct = some (t.world.slot i).view ∧
      messagesFor o host (keyOf callId) p s =
        if (t.world.slot i).view.recorded then [p.terminate.record] else [] := by
    intro i t hfind
    have hi : (findOrAdd o host msg p.ts s).1 = some i := by rw [hfind]
    obtain ⟨hu, hkey⟩ := key_of_message hs hb hid hi
    have hslot := (slots_of_message hs hb hi).2
    rw [hfind] at hslot
    have hsame := SameMedia.foldl hsip (t.world.slot i)
    refine ⟨(callView_eq_some_iff hinv).mpr ⟨i, hu, hkey, ?_⟩, ?_⟩
    · refine (congrArg CalltableElement.view hslot).trans ?_
      rw [CalltableElement.view, hsame.fPcap, hsame.firstPacketTime, hsame.lastPacketTime]
      rfl
    · simp only [messagesFor, hb, Branch.dumps, hfind, CalltableElement.view]
      have hdump : ∀ file : Option Handle, (file.toList.map fun f =>
          (Via.sip i, f, p.terminate.record)).filterMap (fun d => match d.1 with
            | .sip i => if ((dispatch o host p s).world.slot i).key = keyOf callId then
                some d.2.2 else none
            | _ => none) = if file.isSome then [p.terminate.record] else [] := by
        intro file
        cases file with
        | none => rfl
        | some f => exact List.filterMap_cons_some (if_pos hkey)
      exact hdump _
  rcases hf : s.world.ct.findByCallId callId with _ | i
  · have hnone : callView (keyOf callId) s.world.ct = none :=
      (callView_eq_none_iff hs).mpr (findByCallId_eq_none_iff.mp hf)
    rw [hnone, CallView.hear]
    by_cases hn : numberFilterMatched o msg
    · rw [if_pos hn]
      obtain ⟨hu, -, -⟩ := s.world.slot_added callId msg.caller.toBytes msg.called.toBytes p.ts
      have hrecorded := h.newCall (s := s.added msg callId p.ts) hcnt msg callId p.ts hu
      obtain ⟨t, ht⟩ : ∃ t, t = newCall o host msg callId p.ts s.world.ct.addIdx
          (s.added msg callId p.ts) := ⟨_, rfl⟩
      rw [← ht] at hrecorded
      have hfind : findOrAdd o host msg p.ts s = (some s.world.ct.addIdx, t) :=
        (findOrAdd_added hid hf hn host p.ts).trans (ht ▸ rfl)
      obtain ⟨hcall, hdumps⟩ := hview _ _ hfind
      -- the element has been given the times of the message
      have htimes : (t.world.slot s.world.ct.addIdx).view =
          ⟨o.methodFilter msg.method, p.ts, p.ts⟩ := by
        rcases slot_findOrAdd o host msg p.ts s s.world.ct.addIdx with
          hsame | ⟨callId', f, fnPcap, -, -, -, -, -, hslot⟩
        · have hused := used_findOrAdd o host msg p.ts hs _ (congrArg Prod.fst hfind)
          rw [hsame, World.slot, s.world.ct.isUsed_addIdx] at hused
          exact absurd hused (by decide)
        · rw [hfind] at hslot
          rw [CalltableElement.view, hrecorded, hslot]
          rfl
      rw [htimes] at hcall hdumps
      exact ⟨hcall, hdumps⟩
    · rw [if_neg hn]
      have hfind := findOrAdd_refused hid hf hn host p.ts
      refine ⟨?_, ?_⟩
      · rw [dispatch_eq, hb]
        simp only [Branch.run, hfind]
        exact hnone
      · simp only [messagesFor, hb, Branch.dumps, hfind, List.filterMap_nil]
        rfl
  · obtain ⟨hu, hkey⟩ := hs.findByCallId_eq_some_iff.mp hf
    have hsome : callView (keyOf callId) s.world.ct = some (s.world.slot i).view :=
      (callView_eq_some_iff hs).mpr ⟨i, hu, hkey, rfl⟩
    obtain ⟨hcall, hdumps⟩ := hview i s (findOrAdd_found hid hf o host p.ts)
    rw [hsome, CallView.hear]
    exact ⟨hcall, hdumps⟩

/-! ### Two runs -/

/-- The states are the same to the call with the key. -/
structure AlikeFor (o : Options) (k : CallKey) (s t : State) : Prop where
  left : s.world.ct.TableInv
  right : t.world.ct.TableInv
  timeout_left : s.world.ct.optAbsoluteTimeout = o.optAbsoluteTimeout
  timeout_right : t.world.ct.optAbsoluteTimeout = o.optAbsoluteTimeout
  cnt_left : s.callSkipCnt = 1
  cnt_right : t.callSkipCnt = 1
  lastCleanup : s.lastCleanup = t.lastCleanup
  view : callView k s.world.ct = callView k t.world.ct

lemma alikeFor_start (o : Options) (k : CallKey) : AlikeFor o k o.start o.start :=
  ⟨tableInv_start o, tableInv_start o, rfl, rfl, rfl, rfl, rfl, rfl⟩

lemma AlikeFor.cleanup (h : AlikeFor o k s t) (T : ℤ) :
    AlikeFor o k { s with world := s.world.cleanup T } { t with world := t.world.cleanup T } where
  left := h.left.doCleanup T
  right := h.right.doCleanup T
  timeout_left := h.timeout_left
  timeout_right := h.timeout_right
  cnt_left := h.cnt_left
  cnt_right := h.cnt_right
  lastCleanup := h.lastCleanup
  view := by
    have hleft := callView_doCleanup (k := k) h.left T
    have hright := callView_doCleanup (k := k) h.right T
    rw [h.timeout_left] at hleft
    rw [h.timeout_right, ← h.view] at hright
    exact hleft.trans hright.symm

/-- The passes in front of two packets of one time. -/
lemma AlikeFor.afterPass (h : AlikeFor o k s t) {p q : Packet} (hts : p.ts = q.ts) :
    AlikeFor o k (afterPass s (.packet p)) (afterPass t (.packet q)) := by
  simp only [PcapSipDump.afterPass, State.periodicCleanup, h.lastCleanup, hts]
  split
  · have hpass := h.cleanup q.ts
    exact ⟨hpass.left, hpass.right, hpass.timeout_left, hpass.timeout_right, hpass.cnt_left,
      hpass.cnt_right, rfl, hpass.view⟩
  · exact h

/-- Two packets after which the views are the same again. -/
lemma AlikeFor.dispatch (h : AlikeFor o k s t) (hrec : RecordsMatching o host) {p q : Packet}
    (hview : callView k (dispatch o host p s).world.ct =
      callView k (dispatch o host q t).world.ct) :
    AlikeFor o k (dispatch o host p s) (dispatch o host q t) := by
  have htimeout : ∀ (s : State) (p : Packet), s.world.ct.TableInv →
      s.world.ct.optAbsoluteTimeout = o.optAbsoluteTimeout →
      (PcapSipDump.dispatch o host p s).world.ct.TableInv ∧
        (PcapSipDump.dispatch o host p s).world.ct.optAbsoluteTimeout = o.optAbsoluteTimeout := by
    intro s p hs ht
    refine dispatch_invariant (P := fun v : World => v.ct.TableInv ∧
      v.ct.optAbsoluteTimeout = o.optAbsoluteTimeout) (fun _ hv => hv.1) ?_ ⟨hs, ht⟩
    rintro v op hop - ⟨hv, hvt⟩
    exact ⟨tableInv_next hop hv, (settings_next op).1.trans hvt⟩
  have hcnt : ∀ (s : State) (p : Packet), s.callSkipCnt = 1 →
      (PcapSipDump.dispatch o host p s).callSkipCnt = 1 := by
    intro s p hs
    rcases (counters_dispatch o host p s).2 with he | ⟨hskip, -⟩ | he
    · exact he.trans hs
    · omega
    · exact he.trans hrec.everyCall
  exact ⟨(htimeout s p h.left h.timeout_left).1, (htimeout t q h.right h.timeout_right).1,
    (htimeout s p h.left h.timeout_left).2, (htimeout t q h.right h.timeout_right).2,
    hcnt s p h.cnt_left, hcnt t q h.cnt_right,
    (counters_dispatch o host p s).1.trans
      (h.lastCleanup.trans (counters_dispatch o host q t).1.symm),
    hview⟩

/-- **One input** keeps the states alike and adds the same messages. -/
lemma AlikeFor.next (hmode : o.optRtpsave = .none) (hrec : RecordsMatching o host)
    (h : AlikeFor o k s t) {a b : Input} (hab : SameFor o k a b) :
    AlikeFor o k ((loop o host).next s a) ((loop o host).next t b) ∧
      dumpedMessages o host k s a = dumpedMessages o host k t b := by
  cases hab with
  | same a =>
    cases a with
    | cleanup T => exact ⟨h.cleanup T, rfl⟩
    | packet p =>
      have hpass := h.afterPass (p := p) rfl
      by_cases hmsg : ∃ msg, MessageOf o k p msg
      · obtain ⟨msg, hmsg⟩ := hmsg
        obtain ⟨hl, hrecl⟩ := callView_dispatch_message hmode hrec hpass.cnt_left hpass.left hmsg
        obtain ⟨hr, hrecr⟩ := callView_dispatch_message hmode hrec hpass.cnt_right hpass.right hmsg
        refine ⟨hpass.dispatch hrec (hl.trans ((congrArg _ hpass.view).trans hr.symm)), ?_⟩
        rw [dumpedMessages, dumpedMessages, hrecl, hrecr, hpass.view]
      · have hno := not_exists.mp hmsg
        obtain ⟨hl, hrecl⟩ := callView_dispatch_other hmode host hpass.left hno
        obtain ⟨hr, hrecr⟩ := callView_dispatch_other hmode host hpass.right hno
        refine ⟨hpass.dispatch hrec (hl.trans (hpass.view.trans hr.symm)), ?_⟩
        rw [dumpedMessages, dumpedMessages, hrecl, hrecr]
  | @other p q hts hp hq =>
    have hpass := h.afterPass hts
    obtain ⟨hl, hrecl⟩ := callView_dispatch_other hmode host hpass.left hp
    obtain ⟨hr, hrecr⟩ := callView_dispatch_other hmode host hpass.right hq
    refine ⟨hpass.dispatch hrec (hl.trans (hpass.view.trans hr.symm)), ?_⟩
    rw [dumpedMessages, dumpedMessages, hrecl, hrecr]

/-- **Calls do not interfere.**  With `-R none`, and with settings that record every call whose
method matches, two captures that differ in packets which are no messages of a call, but not in
their times, lead to the same messages being dumped for the call. -/
theorem signalling_noninterference (o : Options) (host : Host) (hmode : o.optRtpsave = .none)
    (hrec : RecordsMatching o host) (k : CallKey) {inputs inputs' : List Input}
    (hsame : List.Forall₂ (SameFor o k) inputs inputs') :
    (loop o host).collect (dumpedMessages o host k) o.start inputs =
      (loop o host).collect (dumpedMessages o host k) o.start inputs' :=
  (Machine.unwinding (R := AlikeFor o k) (fun _ _ _ _ h hab => h.next hmode hrec hab)
    (alikeFor_start o k) hsame).2

/-- The second packet is an INVITE of another call, or nothing at all. -/
theorem signalling_noninterference_otherCall :
    let o : Options := { Options.raw with optRtpsave := .none }
    let inputs (second : Bytes) : List Input := [.packet (.captured 1000 (invite "x")),
      .packet (.captured 1001 second), .packet (.captured 1002 (byeRequest "x"))]
    let records (second : Bytes) := (loop o Host.numbering).collect
      (dumpedMessages o Host.numbering (keyOf (ascii "x"))) o.start (inputs second)
    records [] = [(Packet.captured 1000 (invite "x")).terminate.record,
        (Packet.captured 1002 (byeRequest "x")).terminate.record] ∧
      records (invite "y") = records [] := by
  intro o inputs records
  refine ⟨by decide +kernel, ?_⟩
  refine signalling_noninterference o Host.numbering rfl ⟨rfl, fun _ _ => Option.some_ne_none _⟩
    (keyOf (ascii "x")) (.cons (.same _) (.cons (.other rfl ?_ ?_) (.cons (.same _) .nil)))
  · rintro msg ⟨hmsg, hkey⟩
    have hother : (reading o (.captured 1001 (invite "y"))).message.map
        (fun msg => msg.callId.map keyOf) = some (some (keyOf (ascii "y"))) := by decide +kernel
    rw [hmsg, Option.map_some, hkey] at hother
    exact absurd hother (by decide)
  · rintro msg ⟨hmsg, -⟩
    have hnone : (reading o (.captured 1001 [])).message.isNone := by decide +kernel
    rw [hmsg] at hnone
    exact absurd hnone Bool.false_ne_true

end PcapSipDump
