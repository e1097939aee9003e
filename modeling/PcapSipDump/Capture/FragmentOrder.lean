import PcapSipDump.Capture.Fragments

/-!
# Fragments out of order

A datagram counts as complete when the fragment without the more-fragments flag arrives, whatever
is still to come.  So of the fragments after the first one, exactly those up to this one are dumped
(`fragments_any_order`), in whichever order they come and whatever comes in between.
-/

namespace PcapSipDump

open Lib Lib.CString

variable {o : Options} {host : Host} {s : State} {a : Input} {k : AddrAddrId} {q : Packet}

/-- The packets with the key `k`, in the order in which they arrive. -/
def withKey (o : Options) (k : AddrAddrId) (inputs : List Input) : List Packet :=
  inputs.filterMap fun
    | .packet q => if fragmentKey o q = some k then some q else none
    | .cleanup _ => none

/-- What is dumped through the fragment map under the key `k`. -/
def dumpedAs (k : AddrAddrId) (dumps : List (Via × Handle × Record)) : List (Handle × Record) :=
  dumps.filterMap fun d => if d.1 = .ipfrag k then some d.2 else none

/-- The packets up to the first one that ends a datagram with the key `k`. -/
def upToEnd (o : Options) (k : AddrAddrId) : List Packet → List Packet
  | [] => []
  | q :: qs => if laterFragment o q = some (k, true) then [q] else q :: upToEnd o k qs

lemma upToEnd_append_cons {before after : List Packet} {last : Packet}
    (hbefore : ∀ q ∈ before, laterFragment o q ≠ some (k, true))
    (hlast : laterFragment o last = some (k, true)) :
    upToEnd o k (before ++ last :: after) = before ++ [last] := by
  induction before with
  | nil => exact if_pos hlast
  | cons q before ih =>
    rw [List.cons_append, upToEnd, if_neg (hbefore q List.mem_cons_self),
      ih fun q' hq' => hbefore q' (List.mem_cons_of_mem q hq'), List.cons_append]

lemma withKey_cons_of_eq {rest : List Input} (h : fragmentKey o q = some k) :
    withKey o k (.packet q :: rest) = q :: withKey o k rest :=
  List.filterMap_cons_some (if_pos h)

lemma withKey_cons_of_ne {rest : List Input} (h : ∀ q, a = .packet q → fragmentKey o q ≠ some k) :
    withKey o k (a :: rest) = withKey o k rest := by
  refine List.filterMap_cons_none ?_
  cases a with
  | packet q => exact if_neg (h q rfl)
  | cleanup currtime => rfl

lemma fragmentKey_of_laterFragment {last : Bool} (h : laterFragment o q = some (k, last)) :
    fragmentKey o q = some k := by
  simp only [fragmentKey, h]

/-! ### One input -/

/-- Other inputs dump nothing under the key. -/
lemma dumpedAs_of_ne (h : ∀ q, a = .packet q → fragmentKey o q ≠ some k) :
    dumpedAs k (inputDumps o host s a) = [] := by
  refine List.filterMap_eq_nil_iff.mpr fun d hd => if_neg ?_
  cases a with
  | cleanup currtime => exact absurd hd List.not_mem_nil
  | packet p =>
    rw [inputDumps] at hd
    rcases hb : branch o p (afterPass s (.packet p)).world with
      _ | ⟨aai, last⟩ | ⟨ip, f⟩ | ⟨ip, msg⟩ <;> simp only [hb, Branch.dumps] at hd
    · cases hd
    · obtain ⟨f, -, rfl⟩ := List.mem_map.mp hd
      rintro hvia
      obtain rfl := Via.ipfrag.inj hvia
      exact h p rfl (fragmentKey_of_laterFragment (laterFragment_of_branch hb))
    · split at hd
      · obtain ⟨f, -, rfl⟩ := List.mem_map.mp hd
        simp
      · cases hd
    · split at hd
      · obtain ⟨f, -, rfl⟩ := List.mem_map.mp hd
        simp
      · cases hd

/-- A later fragment is dumped into the file that is recorded under its key. -/
lemma dumpedAs_laterFragment {last : Bool} (h : laterFragment o q = some (k, last)) :
    dumpedAs k (inputDumps o host s (.packet q)) =
      (s.world.ct.ipfrags k).join.toList.map fun f => (f, q.record) := by
  rw [inputDumps, branch_of_laterFragment h, Branch.dumps, getIpfrag_fst, ipfrags_afterPass]
  cases (s.world.ct.ipfrags k).join with
  | none => rfl
  | some f => simp [dumpedAs]

/-- Other inputs leave what is recorded under the key. -/
lemma ipfrags_of_ne (hw : (afterPass s a).world.ct.TableInv)
    (h : ∀ q, a = .packet q → fragmentKey o q ≠ some k) :
    ((loop o host).next s a).world.ct.ipfrags k = s.world.ct.ipfrags k := by
  rcases ipfrags_step o host hw k with ⟨v, hrec, -⟩ | ⟨q, last, rfl, hlater, -⟩ | ⟨-, -, he⟩
  · cases a with
    | packet q => exact absurd hrec.fragmentKey_eq (h q rfl)
    | cleanup currtime => exact absurd hrec not_records_cleanup
  · exact absurd (fragmentKey_of_laterFragment hlater) (h q rfl)
  · exact he

/-- What a later fragment leaves under its key. -/
lemma ipfrags_of_laterFragment (host : Host)
    (hw : (afterPass s (.packet q)).world.ct.TableInv) {last : Bool}
    (h : laterFragment o q = some (k, last)) :
    ((loop o host).next s (.packet q)).world.ct.ipfrags k = match s.world.ct.ipfrags k with
      | some (some f) => if last then none else some (some f)
      | _ => some none := by
  rcases ipfrags_step o host hw k with ⟨v, hrec, -⟩ | ⟨q', last', hq, hlater, he⟩ | ⟨-, hno, -⟩
  · rw [hrec.laterFragment_eq] at h
    cases h
  · obtain rfl := Input.packet.inj hq
    obtain ⟨-, rfl⟩ := Prod.mk.inj (Option.some.inj (h.symm.trans hlater))
    exact he
  · exact absurd h (hno q last rfl)

/-! ### A train of fragments -/

/-- **What is dumped of a train.**  While a file is recorded under the key, the packets with the key
are dumped into it up to the one that ends the datagram; without a file none is. -/
theorem dumpedAs_run {rest : List Input} (howns : Owns s.world)
    (hlater : ∀ q ∈ withKey o k rest, ∃ last, laterFragment o q = some (k, last)) :
    ∃ new, ((loop o host).run s rest).world.written = s.world.written ++ new ∧
      dumpedAs k new = match s.world.ct.ipfrags k with
        | some (some f) => (upToEnd o k (withKey o k rest)).map fun q => (f, q.record)
        | _ => [] := by
  induction rest generalizing s with
  | nil =>
    refine ⟨[], (List.append_nil _).symm, ?_⟩
    rcases s.world.ct.ipfrags k with _ | _ | f <;> rfl
  | cons a rest ih =>
    have hw := (howns.afterPass a).tableInv
    have hnext := written_loop o host hw
    by_cases hkey : ∃ q, a = .packet q ∧ fragmentKey o q = some k
    · obtain ⟨q, rfl, hq⟩ := hkey
      rw [withKey_cons_of_eq hq] at hlater ⊢
      obtain ⟨last, hlast⟩ := hlater q List.mem_cons_self
      obtain ⟨new, hnew, hdumped⟩ := ih (howns.loop _) fun q' hq' =>
        hlater q' (List.mem_cons_of_mem q hq')
      refine ⟨_, by rw [Machine.run_cons, hnew, hnext, List.append_assoc], ?_⟩
      have hmap := ipfrags_of_laterFragment host hw hlast
      rw [hmap] at hdumped
      have hsplit : ∀ new', dumpedAs k (inputDumps o host s (.packet q) ++ new') =
          dumpedAs k (inputDumps o host s (.packet q)) ++ dumpedAs k new' :=
        fun _ => List.filterMap_append
      rw [hsplit, dumpedAs_laterFragment hlast, upToEnd, hlast]
      rcases hv : s.world.ct.ipfrags k with _ | _ | f
      · rw [hv] at hdumped
        simpa using hdumped
      · rw [hv] at hdumped
        simpa using hdumped
      · rw [hv] at hdumped
        cases last <;> simpa using hdumped
    · have hne : ∀ q, a = .packet q → fragmentKey o q ≠ some k :=
        fun q hq hk => hkey ⟨q, hq, hk⟩
      rw [withKey_cons_of_ne hne] at hlater ⊢
      obtain ⟨new, hnew, hdumped⟩ := ih (howns.loop _) hlater
      refine ⟨_, by rw [Machine.run_cons, hnew, hnext, List.append_assoc], ?_⟩
      rw [ipfrags_of_ne hw hne] at hdumped
      rw [dumpedAs, List.filterMap_append, ← dumpedAs, ← dumpedAs, dumpedAs_of_ne hne, hdumped]
      rfl

/-- **What is dumped of a datagram whose fragments come in any order.**  The first fragment of a
datagram has been recorded for a file, and what comes later with its key are its other fragments, in
some order.  Then the fragments up to and including the end of the datagram are dumped into this
file, and those behind it are not; so all of them are dumped if and only if the end comes last. -/
theorem fragments_any_order (o : Options) (host : Host) (pre rest : List Input) (first : Packet)
    (k : AddrAddrId) (f : Handle) (mids : List Packet) (last : Packet)
    (hfirst : Records o host k (some f) ((loop o host).run o.start pre) (.packet first))
    (hrest : (withKey o k rest).Perm (mids ++ [last]))
    (hmids : ∀ q ∈ mids, laterFragment o q = some (k, false))
    (hlast : laterFragment o last = some (k, true)) :
    let s := (loop o host).run o.start (pre ++ [.packet first])
    ∃ before after new, withKey o k rest = before ++ last :: after ∧
      ((loop o host).run s rest).world.written = s.world.written ++ new ∧
      dumpedAs k new = (before ++ [last]).map (fun q => (f, q.record)) ∧
      ((dumpedAs k new).Perm ((mids ++ [last]).map fun q => (f, q.record)) ↔ after = []) := by
  intro s
  have hmem : last ∈ withKey o k rest := hrest.mem_iff.mpr (by simp)
  obtain ⟨before, after, horder⟩ := List.append_of_mem hmem
  -- what comes before and behind the end are the fragments in the middle
  have hothers : (before ++ after).Perm mids := by
    rw [horder] at hrest
    have hcons := hrest.trans (List.perm_append_singleton last mids)
    exact (List.perm_middle.symm.trans hcons).cons_inv
  have hlater : ∀ q ∈ withKey o k rest, ∃ last, laterFragment o q = some (k, last) := by
    intro q hq
    rcases List.mem_append.mp (hrest.mem_iff.mp hq) with hq | hq
    · exact ⟨false, hmids q hq⟩
    · obtain rfl := List.mem_singleton.mp hq
      exact ⟨true, hlast⟩
  have hopen : s.world.ct.ipfrags k = some (some f) := by
    have hrun : s = (loop o host).next ((loop o host).run o.start pre) (.packet first) :=
      Machine.run_append _ _ _ _
    rw [hrun]
    exact (ipfrags_step_iff ((owns_run o host pre).afterPass _).tableInv k f).mpr (Or.inl hfirst)
  have hbefore : ∀ q ∈ before, laterFragment o q ≠ some (k, true) := by
    intro q hq hend
    have hmid := hmids q (hothers.mem_iff.mp (List.mem_append_left _ hq))
    exact absurd (hmid.symm.trans hend) (by simp)
  obtain ⟨new, hnew, hdumped⟩ := dumpedAs_run (owns_run o host _) hlater
  rw [hopen, horder, upToEnd_append_cons hbefore hlast] at hdumped
  refine ⟨before, after, new, horder, hnew, hdumped, ?_⟩
  rw [hdumped]
  constructor
  · intro hall
    have hlength := hall.length_eq
    have hlength' := hothers.length_eq
    simp only [List.length_map, List.length_append, List.length_cons, List.length_nil]
      at hlength hlength'
    exact List.eq_nil_of_length_eq_zero (by omega)
  · rintro rfl
    rw [List.append_nil] at hothers
    exact (hothers.append_right [last]).map _

/-- A fragment of an INVITE, with its offset and its flags. -/
def inviteFragment (ts : ℤ) (fragOff : UInt16) : Packet :=
  .captured ts (ipv4Udp 7 fragOff [10, 0, 0, 1] [10, 0, 0, 2] 5060 5060
    (sipRequest "INVITE" "x" []))

/-- The key of this INVITE. -/
def inviteKey : AddrAddrId := ⟨0x0100000a, 0x0200000a, 0x0700⟩

/-- Two fragments change places, and the end comes last. -/
theorem fragments_any_order_swapped :
    let s := (loop Options.raw Host.numbering).run Options.raw.start
      [.packet (inviteFragment 1000 0x2000)]
    ∃ new, ((loop Options.raw Host.numbering).run s [.packet (inviteFragment 1001 0x2002),
        .packet (inviteFragment 1002 0x2001), .packet (inviteFragment 1003 3)]).world.written =
        s.world.written ++ new ∧
      (dumpedAs inviteKey new).Perm ([inviteFragment 1002 0x2001, inviteFragment 1001 0x2002,
        inviteFragment 1003 3].map fun q => (1, q.record)) := by
  intro s
  have hmid : laterFragment Options.raw (inviteFragment 1001 0x2002) = some (inviteKey, false) := by
    decide +kernel
  have hmid' :
      laterFragment Options.raw (inviteFragment 1002 0x2001) = some (inviteKey, false) := by
    decide +kernel
  have hlast : laterFragment Options.raw (inviteFragment 1003 3) = some (inviteKey, true) := by
    decide +kernel
  have horder : withKey Options.raw inviteKey [.packet (inviteFragment 1001 0x2002),
      .packet (inviteFragment 1002 0x2001), .packet (inviteFragment 1003 3)] =
      [inviteFragment 1001 0x2002, inviteFragment 1002 0x2001, inviteFragment 1003 3] := by
    rw [withKey_cons_of_eq (fragmentKey_of_laterFragment hmid),
      withKey_cons_of_eq (fragmentKey_of_laterFragment hmid'),
      withKey_cons_of_eq (fragmentKey_of_laterFragment hlast)]
    rfl
  obtain ⟨before, after, new, hsplit, hnew, -, hall⟩ := fragments_any_order Options.raw
    Host.numbering [] [.packet (inviteFragment 1001 0x2002), .packet (inviteFragment 1002 0x2001),
      .packet (inviteFragment 1003 3)] (inviteFragment 1000 0x2000) inviteKey 1
    [inviteFragment 1002 0x2001, inviteFragment 1001 0x2002] (inviteFragment 1003 3)
    (by decide +kernel) (horder ▸ List.Perm.swap _ _ _) (by simp [hmid, hmid']) hlast
  have hend : after = [] := by
    rw [horder] at hsplit
    rcases before with _ | ⟨b, _ | ⟨c, _ | ⟨d, before⟩⟩⟩
    · obtain ⟨heq, -⟩ := List.cons.inj hsplit
      rw [heq] at hmid
      exact absurd (hmid.symm.trans hlast) (by decide)
    · obtain ⟨-, hsplit⟩ := List.cons.inj hsplit
      obtain ⟨heq, -⟩ := List.cons.inj hsplit
      rw [heq] at hmid'
      exact absurd (hmid'.symm.trans hlast) (by decide)
    · obtain ⟨-, hsplit⟩ := List.cons.inj hsplit
      obtain ⟨-, hsplit⟩ := List.cons.inj hsplit
      exact (List.cons.inj hsplit).2.symm
    · simp at hsplit
  exact ⟨new, hnew, hall.mpr hend⟩

/-- The end of the INVITE comes before the fragment in its middle, which is not dumped. -/
theorem fragments_any_order_false :
    ¬∀ (o : Options) (host : Host) (pre rest : List Input) (first : Packet) (k : AddrAddrId)
      (f : Handle) (mids : List Packet) (last : Packet),
      Records o host k (some f) ((loop o host).run o.start pre) (.packet first) →
      (withKey o k rest).Perm (mids ++ [last]) →
      (∀ q ∈ mids, laterFragment o q = some (k, false)) → laterFragment o last = some (k, true) →
      let s := (loop o host).run o.start (pre ++ [.packet first])
      ∃ new, ((loop o host).run s rest).world.written = s.world.written ++ new ∧
        (dumpedAs k new).Perm ((mids ++ [last]).map fun q => (f, q.record)) := by
  intro h
  have hmid : laterFragment Options.raw (inviteFragment 1002 0x2001) = some (inviteKey, false) := by
    decide +kernel
  have hlast : laterFragment Options.raw (inviteFragment 1001 2) = some (inviteKey, true) := by
    decide +kernel
  have horder : withKey Options.raw inviteKey [.packet (inviteFragment 1001 2),
      .packet (inviteFragment 1002 0x2001)] =
        [inviteFragment 1001 2, inviteFragment 1002 0x2001] := by
    rw [withKey_cons_of_eq (fragmentKey_of_laterFragment hlast),
      withKey_cons_of_eq (fragmentKey_of_laterFragment hmid)]
    rfl
  obtain ⟨new, hnew, hdumped⟩ := h Options.raw Host.numbering [] [.packet (inviteFragment 1001 2),
      .packet (inviteFragment 1002 0x2001)] (inviteFragment 1000 0x2000) inviteKey 1
    [inviteFragment 1002 0x2001] (inviteFragment 1001 2) (by decide +kernel)
    (horder ▸ List.Perm.swap _ _ _) (by simp [hmid]) hlast
  -- the file gets the first fragment and the end
  have hwritten : ((loop Options.raw Host.numbering).run
      ((loop Options.raw Host.numbering).run Options.raw.start
        ([] ++ [.packet (inviteFragment 1000 0x2000)]))
      [.packet (inviteFragment 1001 2), .packet (inviteFragment 1002 0x2001)]).world.written =
      ((loop Options.raw Host.numbering).run Options.raw.start
        ([] ++ [.packet (inviteFragment 1000 0x2000)])).world.written ++
      [(.ipfrag inviteKey, 1, (inviteFragment 1001 2).record)] := by
    decide +kernel
  rw [hnew] at hwritten
  have hlength := hdumped.length_eq
  rw [List.append_cancel_left hwritten] at hlength
  exact absurd hlength (by decide +kernel)

end PcapSipDump
