import PcapSipDump.Capture.Branch

/-!
# Fragments

The SIP branch records the file of a call for the datagram whose first fragment it handles, and
the other fragments of the datagram are dumped into the file that is recorded under their key.
What is recorded under a key after a run is the last write under it: by a first fragment with
this key, or by the fragment that ends a datagram with this key (`ipfrags_eq_iff_since`).

So datagrams with different keys do not interfere (`fragments_filed`).  The key of an IPv6
datagram has only half of its identification, and two datagrams between the same hosts may have
the same key: `fragments6_filed_iff` says when a fragment goes to the file of its own datagram.
-/

namespace PcapSipDump

open Lib Lib.CString

variable {o : Options} {host : Host} {w : World} {p : Packet} {s : State} {a : Input}
  {k : AddrAddrId}

/-! ### The keys of the fragment map -/

/-- The order of the fragment map is a strict total order. -/
lemma AddrAddrId.isStrictTotalOrder_lt :
    IsStrictTotalOrder AddrAddrId fun a b => a.lt b = true where
  irrefl a := by simp [AddrAddrId.lt]
  trans a b c hab hbc := by
    simp only [AddrAddrId.lt, Bool.or_eq_true, Bool.and_eq_true, decide_eq_true_eq, beq_iff_eq,
      UInt32.lt_iff_toNat_lt, UInt16.lt_iff_toNat_lt, ← UInt32.toNat_inj] at *
    omega
  trichotomous a b hab hba := by
    obtain ⟨saddr, daddr, id⟩ := a
    obtain ⟨saddr', daddr', id'⟩ := b
    simp only [AddrAddrId.lt, Bool.or_eq_true, Bool.and_eq_true, decide_eq_true_eq, beq_iff_eq,
      UInt32.lt_iff_toNat_lt, UInt16.lt_iff_toNat_lt, ← UInt32.toNat_inj, ← UInt16.toNat_inj,
      AddrAddrId.mk.injEq] at *
    omega

/-- The key of a fragment of any kind: the one that a later fragment is looked up with, or the one
that the SIP branch would record. -/
def fragmentKey (o : Options) (p : Packet) : Option AddrAddrId :=
  match laterFragment o p with
  | some (aai, _) => some aai
  | none => (headerIp o.dlt p.mem).bind (recordKey p.terminate.mem)

/-- What the SIP branch records for an input: the key and the `f_pcap` of the message's call. -/
def recorded (o : Options) (host : Host) (s : State) :
    Input → Option (AddrAddrId × Option Handle)
  | .packet p =>
      match branch o p (afterPass s (.packet p)).world with
      | .sip ip msg =>
          match findOrAdd o host msg p.ts (afterPass s (.packet p)) with
          | (some i, s') =>
              (recordKey p.terminate.mem ip).map fun k => (k, (s'.world.slot i).fPcap)
          | (none, _) => none
      | _ => none
  | .cleanup _ => none

/-- The packet is handled by the SIP branch for an entry with `f_pcap` equal to `v`, and this is
recorded under the key `k`. -/
abbrev Records (o : Options) (host : Host) (k : AddrAddrId) (v : Option Handle) (s : State)
    (a : Input) : Prop := recorded o host s a = some (k, v)

/-- The input is the last fragment of a datagram with the key `k`. -/
def Finishes (o : Options) (k : AddrAddrId) : Input → Prop
  | .packet p => laterFragment o p = some (k, true)
  | .cleanup _ => False

/-- The input changes what is recorded under the key `k`. -/
def Rewrites (o : Options) (host : Host) (k : AddrAddrId) (s : State) (a : Input) : Prop :=
  (∃ v, Records o host k v s a) ∨ Finishes o k a

lemma records_packet_iff {v : Option Handle} :
    Records o host k v s (.packet p) ↔ ∃ ip msg i s',
      branch o p (afterPass s (.packet p)).world = .sip ip msg ∧
        findOrAdd o host msg p.ts (afterPass s (.packet p)) = (some i, s') ∧
        recordKey p.terminate.mem ip = some k ∧ (s'.world.slot i).fPcap = v := by
  rw [Records, recorded]
  constructor
  · intro h
    rcases hb : branch o p (afterPass s (.packet p)).world with _ | _ | _ | ⟨ip, msg⟩
    · simp [hb] at h
    · simp [hb] at h
    · simp [hb] at h
    · rcases hf : findOrAdd o host msg p.ts (afterPass s (.packet p)) with ⟨_ | i, s'⟩
      · simp [hb, hf] at h
      · simp only [hb, hf, Option.map_eq_some_iff, Prod.mk.injEq] at h
        obtain ⟨k', hk, rfl, hv⟩ := h
        exact ⟨ip, msg, i, s', rfl, hf, hk, hv⟩
  · rintro ⟨ip, msg, i, s', hb, hf, hk, rfl⟩
    simp only [hb, hf, hk, Option.map_some]

lemma not_records_cleanup {v : Option Handle} {currtime : ℤ} :
    ¬Records o host k v s (.cleanup currtime) := by
  simp [Records, recorded]

lemma Records.unique {v v' : Option Handle} (h : Records o host k v s a)
    (h' : Records o host k v' s a) : v' = v := by
  simpa using (h'.symm.trans h)

lemma Records.fragmentKey_eq {v : Option Handle} (h : Records o host k v s (.packet p)) :
    fragmentKey o p = some k := by
  obtain ⟨ip, msg, i, t, hb, -, hk, -⟩ := records_packet_iff.mp h
  obtain ⟨hlater, hip, -⟩ := of_branch_sip hb
  simp only [fragmentKey, hlater, hip, Option.bind_some, hk]

/-- A later fragment is not handled by the SIP branch. -/
lemma Records.laterFragment_eq {v : Option Handle} (h : Records o host k v s (.packet p)) :
    laterFragment o p = none := by
  obtain ⟨ip, msg, i, t, hb, -, -, -⟩ := records_packet_iff.mp h
  exact (of_branch_sip hb).1

lemma ipfrags_afterPass (s : State) (a : Input) :
    (afterPass s a).world.ct.ipfrags = s.world.ct.ipfrags :=
  afterPass_invariant (P := fun v : World => v.ct.ipfrags = s.world.ct.ipfrags) rfl
    fun _ _ => rfl

lemma not_records_of_message {v : Option Handle}
    (h : (branch o p (afterPass s (.packet p)).world).message = none) :
    ¬Records o host k v s (.packet p) := by
  intro hv
  obtain ⟨ip, msg, i, t, hb, -⟩ := records_packet_iff.mp hv
  rw [hb] at h
  cases h

/-- What a later fragment does to a key. -/
lemma ipfrags_fragmentBranch (o : Options) (host : Host) (p : Packet) (s : State)
    (aai k : AddrAddrId) (last : Bool) :
    (Branch.fragment aai last).ipfrags o host p s k =
      if k = aai then (match s.world.ct.ipfrags k with
        | some (some f) => if last then none else some (some f)
        | _ => some none)
      else s.world.ct.ipfrags k := by
  simp only [Branch.ipfrags]
  by_cases hk : k = aai
  · subst hk
    rw [if_pos rfl]
    rcases hv : s.world.ct.ipfrags k with _ | _ | f
    · simp
    · simp
    · cases last <;> simp [hv]
  · rw [if_neg hk]
    rcases s.world.ct.ipfrags aai with _ | _ | f
    · simp [hk]
    · simp [hk]
    · cases last <;> simp [hk]

/-- **What an input does to what is recorded under a key.**  It records a file or NULL, it is a
later fragment with this key, or it does nothing to the key. -/
lemma ipfrags_step (o : Options) (host : Host) (hw : (afterPass s a).world.ct.TableInv)
    (k : AddrAddrId) :
    (∃ v, Records o host k v s a ∧
        ((loop o host).next s a).world.ct.ipfrags k = some v) ∨
      (∃ p last, a = .packet p ∧ laterFragment o p = some (k, last) ∧
        ((loop o host).next s a).world.ct.ipfrags k = match s.world.ct.ipfrags k with
          | some (some f) => if last then none else some (some f)
          | _ => some none) ∨
      ((∀ v, ¬Records o host k v s a) ∧
        (∀ p last, a = .packet p → laterFragment o p ≠ some (k, last)) ∧
        ((loop o host).next s a).world.ct.ipfrags k = s.world.ct.ipfrags k) := by
  cases a with
  | cleanup currtime => exact Or.inr (Or.inr ⟨fun _ => not_records_cleanup, by simp, rfl⟩)
  | packet p =>
    have hnext : ((loop o host).next s (.packet p)).world.ct.ipfrags =
        (branch o p (afterPass s (.packet p)).world).ipfrags o host p (afterPass s (.packet p)) :=
      ipfrags_dispatch o host p hw
    have hpass := ipfrags_afterPass s (.packet p)
    rw [hnext]
    rcases hl : laterFragment o p with _ | ⟨aai, last⟩
    · have hlater : ∀ q last, Input.packet p = .packet q → laterFragment o q ≠ some (k, last) := by
        rintro q last ⟨⟩ hq
        exact absurd (hl.symm.trans hq) (by simp)
      rcases hb : branch o p (afterPass s (.packet p)).world with
        _ | ⟨aai, last⟩ | ⟨ip, f⟩ | ⟨ip, msg⟩
      · exact Or.inr (Or.inr ⟨fun v => not_records_of_message (by rw [hb]; rfl), hlater,
          congrFun hpass k⟩)
      · exact absurd (hl.symm.trans (laterFragment_of_branch hb)) (by simp)
      · exact Or.inr (Or.inr ⟨fun v => not_records_of_message (by rw [hb]; rfl), hlater,
          congrFun hpass k⟩)
      · rcases hf : findOrAdd o host msg p.ts (afterPass s (.packet p)) with ⟨_ | i, t⟩
        · refine Or.inr (Or.inr ⟨?_, hlater, ?_⟩)
          · intro v hv
            obtain ⟨ip', msg', i, t', hb', hf', -⟩ := records_packet_iff.mp hv
            obtain ⟨rfl, rfl⟩ := Branch.sip.inj (hb.symm.trans hb')
            exact absurd (hf.symm.trans hf') (by simp)
          · simp only [Branch.ipfrags, hf]
            exact congrFun hpass k
        · -- the branch records under the key of the packet, if it has one
          by_cases hk : recordKey p.terminate.mem ip = some k
          · refine Or.inl ⟨_, records_packet_iff.mpr ⟨ip, msg, i, t, hb, hf, hk, rfl⟩, ?_⟩
            simp [Branch.ipfrags, hf, hk]
          · refine Or.inr (Or.inr ⟨?_, hlater, ?_⟩)
            · intro v hv
              obtain ⟨ip', msg', i', t', hb', -, hk', -⟩ := records_packet_iff.mp hv
              obtain ⟨rfl, rfl⟩ := Branch.sip.inj (hb.symm.trans hb')
              exact hk hk'
            · simp only [Branch.ipfrags, hf, hpass]
              rcases hr : recordKey p.terminate.mem ip with _ | k'
              · rfl
              · have hne : k ≠ k' := fun h => hk (hr.trans (congrArg some h.symm))
                simp [hne]
    · rw [branch_of_laterFragment hl, ipfrags_fragmentBranch, hpass]
      by_cases hk : k = aai
      · subst hk
        exact Or.inr (Or.inl ⟨p, last, rfl, hl, if_pos rfl⟩)
      · refine Or.inr (Or.inr ⟨fun v => not_records_of_message ?_, ?_, if_neg hk⟩)
        · rw [branch_of_laterFragment hl]
          rfl
        · rintro q last' ⟨⟩ hq
          obtain ⟨hkey, -⟩ := Prod.mk.inj (Option.some.inj (hl.symm.trans hq))
          exact hk hkey.symm

/-- Recording a file makes it the one under the key, and as long as nothing rewrites the key it
stays there. -/
lemma ipfrags_step_iff (hw : (afterPass s a).world.ct.TableInv) (k : AddrAddrId) (f : Handle) :
    ((loop o host).next s a).world.ct.ipfrags k = some (some f) ↔
      Records o host k (some f) s a ∨
        ¬Rewrites o host k s a ∧ s.world.ct.ipfrags k = some (some f) := by
  rcases ipfrags_step o host hw k with
    ⟨v, hrec, he⟩ | ⟨p, last, rfl, hlater, he⟩ | ⟨hrec, hlater, he⟩
  · rw [he]
    constructor
    · intro hv
      exact Or.inl (Option.some.inj hv ▸ hrec)
    · rintro (hf | ⟨hno, -⟩)
      · rw [hrec.unique hf]
      · exact absurd (Or.inl ⟨v, hrec⟩) hno
  · have hrec : ∀ v, ¬Records o host k v s (.packet p) := fun v hv => by
      rw [hv.laterFragment_eq] at hlater
      cases hlater
    rw [he]
    cases last with
    | true =>
      have hfin : Rewrites o host k s (.packet p) := Or.inr hlater
      rcases s.world.ct.ipfrags k with _ | _ | g <;> simp [hrec, hfin]
    | false =>
      have hno : ¬Rewrites o host k s (.packet p) := by
        rintro (⟨v, hv⟩ | hfin)
        · exact hrec v hv
        · exact absurd (hlater.symm.trans hfin) (by simp)
      rcases s.world.ct.ipfrags k with _ | _ | g <;> simp [hrec, hno]
  · have hno : ¬Rewrites o host k s a := by
      rintro (⟨v, hv⟩ | hfin)
      · exact hrec v hv
      · cases a with
        | packet p => exact hlater p true rfl hfin
        | cleanup currtime => exact hfin
    rw [he]
    simp [hrec, hno]

/-- **What is recorded under a key** after a run is what was recorded last, unless the key has been
rewritten since. -/
theorem ipfrags_eq_iff_since (howns : Owns s.world) (k : AddrAddrId) (f : Handle)
    (inputs : List Input) :
    ((loop o host).run s inputs).world.ct.ipfrags k = some (some f) ↔
      (loop o host).Since (Records o host k (some f)) (Rewrites o host k) s inputs ∨
        (loop o host).Along (fun s a => ¬Rewrites o host k s a) s inputs ∧
          s.world.ct.ipfrags k = some (some f) := by
  refine Machine.run_iff_since (P := fun s : State => s.world.ct.ipfrags k = some (some f))
    (I := fun s => Owns s.world) (fun s a _ h => h.loop a) (fun s a _ h => ?_)
    (legal_loop o host s inputs) howns
  exact ipfrags_step_iff (h.afterPass a).tableInv k f

/-- What is recorded under a key stays there as long as nothing rewrites the key. -/
lemma ipfrags_kept (howns : Owns s.world) {f : Handle}
    (hopen : s.world.ct.ipfrags k = some (some f)) {inputs : List Input}
    (hno : ∀ a ∈ inputs, ∀ t, ¬Rewrites o host k t a) :
    ((loop o host).run s inputs).world.ct.ipfrags k = some (some f) := by
  rw [ipfrags_eq_iff_since howns]
  have hall : (loop o host).Along (fun _ a => ∀ t, ¬Rewrites o host k t a) s inputs :=
    (loop o host).along_of_forall hno
  exact Or.inr ⟨hall.imp fun t _ h => h t, hopen⟩

/-- As long as nothing is recorded under a key without a file, nothing is found under it. -/
lemma getIpfrag_eq_none (howns : Owns s.world) (hclosed : ∀ f, s.world.ct.ipfrags k ≠ some (some f))
    {inputs : List Input} (hno : ∀ a ∈ inputs, ∀ t v, ¬Records o host k v t a) :
    (((loop o host).run s inputs).world.ct.getIpfrag k).1 = none := by
  have hnone : ∀ f, ((loop o host).run s inputs).world.ct.ipfrags k ≠ some (some f) := by
    intro f hf
    rcases (ipfrags_eq_iff_since howns k f inputs).mp hf with ⟨b, a, c, rfl, hrec, -⟩ | ⟨-, hf'⟩
    · exact hno a (by simp) _ _ hrec
    · exact hclosed f hf'
  rw [getIpfrag_fst]
  rcases hv : ((loop o host).run s inputs).world.ct.ipfrags k with _ | _ | f
  · rfl
  · rfl
  · exact absurd hv (hnone f)

/-- What a later fragment dumps: itself, into the file that is recorded under its key. -/
lemma written_laterFragment (host : Host) (hw : (afterPass s (.packet p)).world.ct.TableInv)
    {last : Bool} (hlater : laterFragment o p = some (k, last)) :
    ((loop o host).next s (.packet p)).world.written = s.world.written ++
      (s.world.ct.ipfrags k).join.toList.map fun f => (.ipfrag k, f, p.record) := by
  rw [written_loop o host hw, inputDumps, branch_of_laterFragment hlater, Branch.dumps,
    getIpfrag_fst, ipfrags_afterPass]

/-! ### Datagrams with different keys -/

/-- **Fragments do not interfere.**  The keys of fragments are strictly and totally ordered.  When
the first fragment of a datagram has been handled by the SIP branch for a call with a file, and
all that comes later with its key are its further fragments, the last of them at the end, then
each of these is dumped once, into the file of the call, and after the last one nothing is
recorded under the key. -/
theorem fragments_filed (o : Options) (host : Host) (pre rest : List Input) (first : Packet)
    (k : AddrAddrId) (f : Handle)
    (hfirst : Records o host k (some f) ((loop o host).run o.start pre) (.packet first))
    (hkeys : ∀ q, .packet q ∈ rest → fragmentKey o q = some k → (laterFragment o q).isSome)
    (hlast : ∀ before q after, rest = before ++ .packet q :: after →
      laterFragment o q = some (k, true) → ∀ q', .packet q' ∈ after → fragmentKey o q' ≠ some k) :
    IsStrictTotalOrder AddrAddrId (fun a b => a.lt b = true) ∧
      ∀ before q after last, rest = before ++ .packet q :: after →
        laterFragment o q = some (k, last) →
        let s := (loop o host).run o.start (pre ++ .packet first :: before)
        let s' := (loop o host).next s (.packet q)
        s'.world.written = s.world.written ++ [(.ipfrag k, f, q.record)] ∧
          (last = true → ∀ more, more <+: after →
            (((loop o host).run s' more).world.ct.getIpfrag k).1 = none) := by
  refine ⟨AddrAddrId.isStrictTotalOrder_lt, fun before q after last hrest hq => ?_⟩
  have howns : ∀ inputs, Owns ((loop o host).run o.start inputs).world := owns_run o host
  -- a later first fragment with the key would be one of the further fragments
  have hrecords : ∀ a ∈ rest, ∀ t v, ¬Records o host k v t a := by
    intro a ha t v hv
    cases a with
    | packet q' =>
      have hsome := hkeys q' ha hv.fragmentKey_eq
      rw [hv.laterFragment_eq] at hsome
      exact absurd hsome (by decide)
    | cleanup currtime => exact not_records_cleanup hv
  have hopen : ((loop o host).run o.start (pre ++ .packet first :: before)).world.ct.ipfrags k =
      some (some f) := by
    have hmem : ∀ a ∈ before, a ∈ rest := fun a ha => by simp [hrest, ha]
    have hbefore : ∀ a ∈ before, ∀ t, ¬Rewrites o host k t a := by
      rintro a ha t (⟨v, hv⟩ | hfin)
      · exact hrecords a (hmem a ha) t v hv
      · cases a with
        | packet q' =>
          -- the last fragment is not followed by another one
          obtain ⟨b, c, rfl⟩ := List.append_of_mem ha
          have hkey : fragmentKey o q = some k := by simp only [fragmentKey, hq]
          exact hlast b q' (c ++ .packet q :: after) (by simp [hrest]) hfin q (by simp) hkey
        | cleanup currtime => exact hfin
    rw [Machine.run_append, Machine.run_cons]
    refine ipfrags_kept ((howns pre).loop (.packet first)) ?_ hbefore
    exact (ipfrags_step_iff ((howns pre).afterPass _).tableInv k f).mpr (Or.inl hfirst)
  intro s s'
  have hw : (afterPass s (.packet q)).world.ct.TableInv := ((howns _).afterPass _).tableInv
  have hopen' : s.world.ct.ipfrags k = some (some f) := hopen
  constructor
  · rw [written_laterFragment host hw hq, hopen']
    rfl
  · rintro rfl more hmore
    have hmem : ∀ a ∈ more, a ∈ rest := fun a ha => by simp [hrest, hmore.subset ha]
    have hclosed : ∀ g, s'.world.ct.ipfrags k ≠ some (some g) := by
      intro g hg
      rcases (ipfrags_step_iff hw k g).mp hg with hrec | ⟨hno, -⟩
      · exact absurd (hrec.laterFragment_eq.symm.trans hq) (by simp)
      · exact hno (Or.inr hq)
    exact getIpfrag_eq_none ((howns _).loop _) hclosed fun a ha => hrecords a (hmem a ha)

/-- An INVITE in two fragments, with a fragment of another datagram in between. -/
theorem fragments_filed_interleaved :
    let fragment (ts : ℤ) (id fragOff : UInt16) : Packet := .captured ts
      (ipv4Udp id fragOff [10, 0, 0, 1] [10, 0, 0, 2] 5060 5060 (sipRequest "INVITE" "x" []))
    let k : AddrAddrId := ⟨0x0100000a, 0x0200000a, 0x0700⟩
    let first := fragment 1000 7 0x2000
    let other := fragment 1001 8 0x0001
    let last := fragment 1002 7 0x0001
    let s := (loop Options.raw Host.numbering).run Options.raw.start
      [.packet first, .packet other]
    let s' := (loop Options.raw Host.numbering).next s (.packet last)
    s'.world.written = s.world.written ++ [(.ipfrag k, 1, last.record)] ∧
      (s'.world.ct.getIpfrag k).1 = none := by
  intro fragment k first other last s s'
  have hfirst : Records Options.raw Host.numbering k (some 1) Options.raw.start
      (.packet first) := by decide +kernel
  have hother : laterFragment Options.raw other =
      some (⟨0x0100000a, 0x0200000a, 0x0800⟩, true) := by decide +kernel
  have hlast : laterFragment Options.raw last = some (k, true) := by decide +kernel
  have hkeys : ∀ q, .packet q ∈ [Input.packet other, .packet last] →
      fragmentKey Options.raw q = some k → (laterFragment Options.raw q).isSome := by
    intro q hq _
    simp only [List.mem_cons, Input.packet.injEq, List.not_mem_nil, or_false] at hq
    rcases hq with rfl | rfl
    · rw [hother]
      rfl
    · rw [hlast]
      rfl
  have hend : ∀ before q after, [Input.packet other, .packet last] = before ++ .packet q :: after →
      laterFragment Options.raw q = some (k, true) →
      ∀ q', .packet q' ∈ after → fragmentKey Options.raw q' ≠ some k := by
    intro before q after heq hq
    rcases before with _ | ⟨b, _ | ⟨c, before⟩⟩
    · -- the other fragment has another key
      obtain ⟨hq', -⟩ := List.cons.inj heq
      obtain rfl := Input.packet.inj hq'
      rw [hother] at hq
      exact absurd hq (by decide)
    · obtain ⟨-, hrest⟩ := List.cons.inj heq
      obtain ⟨-, rfl⟩ := List.cons.inj hrest
      exact fun q' hq' => absurd hq' List.not_mem_nil
    · simp at heq
  obtain ⟨-, hall⟩ := fragments_filed Options.raw Host.numbering []
    [.packet other, .packet last] first k 1 hfirst hkeys hend
  obtain ⟨hwritten, hnone⟩ := hall [.packet other] last [] true rfl hlast
  exact ⟨hwritten, hnone rfl [] (List.prefix_refl _)⟩

/-! ### Fragments of IPv6 datagrams -/

/-- What tells the fragments of one IPv6 datagram from others: the two addresses and the
identification of the fragment header. -/
def datagramId6 (m : Bytes) (ip : ℕ) : Bytes :=
  (List.range 32 ++ [36, 37, 38, 39]).map fun i => u8 m (ip + 8 + i)

/-- The identification of the fragment header. -/
def identification6 (m : Bytes) (ip : ℕ) : UInt32 := be32 m (ip + 44)

/-- Fragments of one datagram have one key. -/
lemma addrAddrId6_congr {m m' : Bytes} {ip ip' : ℕ} (hv : ipVersion m ip = 6)
    (hv' : ipVersion m' ip' = 6) (h : datagramId6 m ip = datagramId6 m' ip') :
    addrAddrId6 m ip = addrAddrId6 m' ip' := by
  have hbyte : ∀ i ∈ List.range 32 ++ [36, 37, 38, 39],
      u8 m (ip + 8 + i) = u8 m' (ip' + 8 + i) := List.map_inj_left.mp h
  have haddr : ∀ i, i < 32 → u8 m (ip + 8 + i) = u8 m' (ip' + 8 + i) :=
    fun i hi => hbyte i (List.mem_append_left _ (List.mem_range.mpr hi))
  have hword : ∀ i, i + 3 < 32 → le32 m (ip + 8 + i) = le32 m' (ip' + 8 + i) := by
    intro i hi
    have h1 : u8 m (ip + 8 + i + 1) = u8 m' (ip' + 8 + i + 1) := haddr (i + 1) (by omega)
    have h2 : u8 m (ip + 8 + i + 2) = u8 m' (ip' + 8 + i + 2) := haddr (i + 2) (by omega)
    have h3 : u8 m (ip + 8 + i + 2 + 1) = u8 m' (ip' + 8 + i + 2 + 1) := haddr (i + 3) hi
    rw [le32, le16, le16, haddr i (by omega), h1, h2, h3, le32, le16, le16]
  have hhash : ∀ i, i + 15 < 32 → hashAddr m (ip + 8 + i) = hashAddr m' (ip' + 8 + i) := by
    intro i hi
    have h1 : le32 m (ip + 8 + i + 4) = le32 m' (ip' + 8 + i + 4) := hword (i + 4) (by omega)
    have h2 : le32 m (ip + 8 + i + 8) = le32 m' (ip' + 8 + i + 8) := hword (i + 8) (by omega)
    have h3 : le32 m (ip + 8 + i + 12) = le32 m' (ip' + 8 + i + 12) := hword (i + 12) (by omega)
    rw [hashAddr, hword i (by omega), h1, h2, h3, hashAddr]
  have hid : le16 m (ip + 44) = le16 m' (ip' + 44) := by
    have h36 : u8 m (ip + 44) = u8 m' (ip' + 44) := hbyte 36 (by simp)
    have h37 : u8 m (ip + 44 + 1) = u8 m' (ip' + 44 + 1) := hbyte 37 (by simp)
    rw [le16, h36, h37, le16]
  have hsrc : hashAddr m (ip + 8) = hashAddr m' (ip' + 8) := hhash 0 (by omega)
  have hdst : hashAddr m (ip + 24) = hashAddr m' (ip' + 24) := hhash 16 (by omega)
  have h4 := ipVersion_ne_four hv
  have h4' := ipVersion_ne_four hv'
  rw [addrAddrId6, addrAddrId6, hsaddr, hsaddr, hdaddr, hdaddr, if_neg h4, if_neg h4', if_neg h4,
    if_neg h4', hsrc, hdst, hid]

/-- A later IPv6 fragment is looked up under its own key. -/
lemma laterFragment_of_isLaterFragment6 {ip : ℕ} (hip : headerIp o.dlt p.mem = some ip)
    (h : isLaterFragment6 p.mem ip) :
    laterFragment o p = some (addrAddrId6 p.mem ip, isLastFragment6 p.mem ip) := by
  have h6 : isFragment6 p.mem ip := by
    simp only [isLaterFragment6, Bool.and_eq_true] at h
    exact h.1.1
  have h4 : ¬isLaterFragment4 p.mem ip := by
    simp only [isLaterFragment4, ipVersion_of_isFragment6 h6]
    simp
  simp only [laterFragment, hip, if_neg h4, if_pos h]

/-- **Where a fragment of an IPv6 datagram goes.**  A later fragment of a datagram whose first
fragment was recorded for the file `f` is dumped into no other file exactly when the last first
fragment that has been recorded under its key since, if no end of a datagram with this key has
followed, was one for the file `f` or for none. -/
theorem fragments6_filed_iff (o : Options) (host : Host) (pre mid : List Input)
    (first q : Packet) (ip iq : ℕ) (k : AddrAddrId) (f : Handle)
    (hfirst : Records o host k (some f) ((loop o host).run o.start pre) (.packet first))
    (hip : headerIp o.dlt first.mem = some ip) (hfirst6 : isFragment6 first.terminate.mem ip)
    (hiq : headerIp o.dlt q.mem = some iq) (hlater : isLaterFragment6 q.mem iq)
    (hsame : datagramId6 q.mem iq = datagramId6 first.terminate.mem ip) :
    let s₀ := (loop o host).run o.start (pre ++ [.packet first])
    let s := (loop o host).run s₀ mid
    (∀ new, ((loop o host).next s (.packet q)).world.written = s.world.written ++ new →
        ∀ d ∈ new, d.2.1 = f) ↔
      ¬∃ g, g ≠ f ∧
        (loop o host).Since (Records o host k (some g)) (Rewrites o host k) s₀ mid := by
  intro s₀ s
  have hq6 : isFragment6 q.mem iq := by
    simp only [isLaterFragment6, Bool.and_eq_true] at hlater
    exact hlater.1.1
  have hkey : addrAddrId6 q.mem iq = k := by
    obtain ⟨ip', msg, i, t, hb, -, hk, -⟩ := records_packet_iff.mp hfirst
    obtain rfl : ip' = ip := Option.some.inj ((of_branch_sip hb).2.1.symm.trans hip)
    have hv := ipVersion_of_isFragment6 hfirst6
    have h4 : ¬isFirstFragment4 first.terminate.mem ip' := by
      simp only [isFirstFragment4, hv]
      simp
    rw [recordKey, if_neg h4, if_pos hfirst6] at hk
    rw [addrAddrId6_congr (ipVersion_of_isFragment6 hq6) hv hsame]
    exact Option.some.inj hk
  have hlookup := laterFragment_of_isLaterFragment6 hiq hlater
  rw [hkey] at hlookup
  have hs₀ : Owns s₀.world := owns_run o host _
  have hw : (afterPass s (.packet q)).world.ct.TableInv := by
    have hs : s = (loop o host).run o.start (pre ++ [.packet first] ++ mid) :=
      (Machine.run_append _ _ _ _).symm
    rw [hs]
    exact ((owns_run o host _).afterPass _).tableInv
  have hwritten := written_laterFragment host hw hlookup
  have hopen : s₀.world.ct.ipfrags k = some (some f) := by
    have hrun : s₀ = (loop o host).next ((loop o host).run o.start pre) (.packet first) :=
      Machine.run_append _ _ _ _
    rw [hrun]
    exact (ipfrags_step_iff ((owns_run o host pre).afterPass _).tableInv k f).mpr (Or.inl hfirst)
  have hsince : ∀ g, g ≠ f → (s.world.ct.ipfrags k = some (some g) ↔
      (loop o host).Since (Records o host k (some g)) (Rewrites o host k) s₀ mid) := by
    intro g hg
    rw [ipfrags_eq_iff_since hs₀ k g mid]
    refine or_iff_left ?_
    rintro ⟨-, hstart⟩
    exact hg (Option.some.inj (Option.some.inj (hstart.symm.trans hopen)))
  rw [hwritten]
  constructor
  · rintro honly ⟨g, hg, hS⟩
    have hmap := (hsince g hg).mpr hS
    refine hg (honly _ rfl (.ipfrag k, g, q.record) ?_)
    rw [hmap]
    exact List.mem_singleton.mpr rfl
  · intro hno new hnew d hd
    rw [← List.append_cancel_left hnew] at hd
    obtain ⟨g, hg, rfl⟩ := List.mem_map.mp hd
    by_contra hne
    have hmap : s.world.ct.ipfrags k = some (some g) := by
      rcases hv : s.world.ct.ipfrags k with _ | _ | g'
      · simp [hv] at hg
      · simp [hv] at hg
      · have hgg : g = g' := by simpa [hv] using hg
        rw [hgg]
    exact hno ⟨g, hne, (hsince g hne).mp hmap⟩

/-- A fragment of an IPv6 datagram from fd00::1 to fd00::2. -/
def fragment6 (ts : ℤ) (id : UInt32) (offsetAndMore : UInt16) (payload : Bytes) : Packet :=
  .captured ts (ipv6Fragment id offsetAndMore (0xfd :: List.replicate 14 0 ++ [1])
    (0xfd :: List.replicate 14 0 ++ [2]) payload)

/-- The first fragment of a datagram with a request, from and to port 5060. -/
def inviteFragment6 (ts : ℤ) (id : UInt32) (callId : String) : Packet :=
  fragment6 ts id 1 (field16 5060 ++ field16 5060 ++ [0, 0, 0, 0] ++ sipRequest "INVITE" callId [])

/-- An INVITE in two fragments. -/
theorem fragments6_filed_iff_alone :
    let first := inviteFragment6 1000 1 "x"
    let q := fragment6 1001 1 8 (ascii "rest")
    let s := (loop Options.raw Host.numbering).run Options.raw.start [.packet first]
    ∀ new, ((loop Options.raw Host.numbering).next s (.packet q)).world.written =
      s.world.written ++ new → ∀ d ∈ new, d.2.1 = 1 := by
  intro first q s
  have hiff := fragments6_filed_iff Options.raw Host.numbering [] [] first q 0 0
    ⟨0x6d0000fd, 0xda0000fd, 0⟩ 1 (by decide +kernel) (by decide +kernel) (by decide +kernel)
    (by decide +kernel) (by decide +kernel) (by decide +kernel)
  refine hiff.mpr ?_
  rintro ⟨g, -, hsince⟩
  exact Machine.since_nil hsince

/-- Two INVITEs with the identifications 1 and 2, each in two fragments: the second fragment of the
first one goes to the file of the second one. -/
theorem fragments6_filed_false :
    let first := inviteFragment6 1000 1 "x"
    let second := inviteFragment6 1001 2 "y"
    let q := fragment6 1002 1 8 (ascii "rest")
    let s := (loop Options.raw Host.numbering).run Options.raw.start [.packet first]
    let s' := (loop Options.raw Host.numbering).next s (.packet second)
    ∃ k, Records Options.raw Host.numbering k (some 1) Options.raw.start (.packet first) ∧
      Records Options.raw Host.numbering k (some 2) s (.packet second) ∧
      identification6 first.mem 0 ≠ identification6 second.mem 0 ∧
      isLaterFragment6 q.mem 0 ∧ datagramId6 q.mem 0 = datagramId6 first.mem 0 ∧
      ((loop Options.raw Host.numbering).next s' (.packet q)).world.written =
        s'.world.written ++ [(.ipfrag k, 2, q.record)] := by
  intro first second q s s'
  refine ⟨⟨0x6d0000fd, 0xda0000fd, 0⟩, ?_⟩
  decide +kernel

end PcapSipDump
