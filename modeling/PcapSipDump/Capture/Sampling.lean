import PcapSipDump.Capture.Events
import PcapSipDump.Capture.Recording

/-!
# Which calls `-l` records

`call_skip_cnt` is one counter for all calls.  It is counted down by each new call whose method
matches, whatever its Call-ID is, and set to the argument of `-l` again when it comes to zero.  So
among these calls, in the order in which they are added, `pcap_dump_open` is called for the first
one and then for each `N`-th one, and for no other message (`every_nth_call_recorded`).
-/

namespace PcapSipDump

open Lib Lib.CString

variable {o : Options} {host : Host} {p : Packet} {s : State} {a : Input}

/-- A call of `pcap_dump_open`. -/
def IoEvent.isDumpOpen : IoEvent → Bool
  | .dumpOpen _ _ _ => true
  | _ => false

/-- The message adds its call, and its method matches. -/
def addsMatching (o : Options) (msg : SipMessage) (ct : Calltable) : Bool :=
  match msg.callId with
  | none => false
  | some callId =>
      (ct.findByCallId callId).isNone && numberFilterMatched o msg && o.methodFilter msg.method

/-- For an input that adds a call whose method matches: whether `pcap_dump_open` is called. -/
def openings (o : Options) (host : Host) (s : State) (a : Input) : List Bool :=
  match a with
  | .packet p =>
      match (branch o p (afterPass s (.packet p)).world).message with
      | some msg =>
          if addsMatching o msg (afterPass s (.packet p)).world.ct then
            [(inputCalls o host s a).any IoEvent.isDumpOpen]
          else []
      | none => []
  | .cleanup _ => []

/-- The argument of `-l`. -/
def Options.skipN (o : Options) : ℕ := o.optCallSkipN.toNat

/-- The counter after `n` calls whose method matches. -/
def Options.skipCntAfter (o : Options) (n : ℕ) : ℤ :=
  o.skipN - ((n + o.skipN - 1) % o.skipN : ℕ)

/-- `n` calls have been added whose method matches. -/
structure Counted (o : Options) (n : ℕ) (s : State) : Prop where
  owns : Owns s.world
  callSkipCnt : s.callSkipCnt = o.skipCntAfter n

/-! ### The counter -/

lemma Options.skipN_pos (o : Options) : 0 < o.skipN := by
  have h := o.callSkipN_pos
  rw [skipN]
  omega

lemma Options.cast_skipN (o : Options) : (o.skipN : ℤ) = o.optCallSkipN :=
  Int.toNat_of_nonneg (le_trans (by decide) o.callSkipN_pos)

/-- The residue of a number from that of the number before. -/
lemma mod_eq_succ {n N : ℕ} (hN : 0 < N) :
    n % N = if (n + N - 1) % N + 1 = N then 0 else (n + N - 1) % N + 1 := by
  have hlt := Nat.mod_lt (n + N - 1) hN
  have hdiv := Nat.div_add_mod (n + N - 1) N
  have hsucc : n + N = N * ((n + N - 1) / N) + ((n + N - 1) % N + 1) := by omega
  have hmod : n % N = ((n + N - 1) % N + 1) % N := calc
    n % N = (n + N) % N := (Nat.add_mod_right n N).symm
    _ = (N * ((n + N - 1) / N) + ((n + N - 1) % N + 1)) % N := congrArg (· % N) hsucc
    _ = ((n + N - 1) % N + 1) % N := Nat.mul_add_mod _ _ _
  rw [hmod]
  split
  · rename_i heq
    rw [heq, Nat.mod_self]
  · exact Nat.mod_eq_of_lt (by omega)

/-- A call is recorded whose number is a multiple of `N`. -/
lemma Options.skipCntAfter_due (o : Options) (n : ℕ) :
    o.skipCntAfter n - 1 ≤ 0 ↔ n % o.skipN = 0 := by
  have hlt := Nat.mod_lt (n + o.skipN - 1) o.skipN_pos
  rw [mod_eq_succ o.skipN_pos, skipCntAfter]
  split <;> omega

/-- The counter after one more call. -/
lemma Options.skipCntAfter_succ (o : Options) (n : ℕ) :
    (if o.skipCntAfter n - 1 ≤ 0 then o.optCallSkipN else o.skipCntAfter n - 1) =
      o.skipCntAfter (n + 1) := by
  have hdue := o.skipCntAfter_due n
  have hmod := mod_eq_succ (n := n) o.skipN_pos
  -- the number of calls is one more, so the residue is the one of `n`
  have hphase : o.skipCntAfter (n + 1) = o.skipN - (n % o.skipN : ℕ) := by
    rw [skipCntAfter, Nat.add_right_comm, Nat.add_sub_cancel, Nat.add_mod_right]
  rw [hphase]
  by_cases hzero : n % o.skipN = 0
  · rw [if_pos (hdue.mpr hzero), hzero, ← o.cast_skipN]
    rfl
  · rw [if_neg fun hc => hzero (hdue.mp hc)]
    rw [hmod] at hzero ⊢
    split at hzero
    · exact absurd rfl hzero
    · rename_i hne
      rw [if_neg hne, skipCntAfter]
      omega

lemma countP_newCallCalls (o : Options) (host : Host) (msg : SipMessage) (callId : Bytes) (ts : ℤ)
    (s : State) : (newCallCalls o host msg callId ts s).countP IoEvent.isDumpOpen =
      if o.methodFilter msg.method ∧ s.callSkipCnt - 1 ≤ 0 then 1 else 0 := by
  have hmkdir : ∀ dir : Option Bytes,
      (dir.map IoEvent.mkdirP).toList.countP IoEvent.isDumpOpen = 0 := by
    intro dir
    cases dir <;> rfl
  unfold newCallCalls
  split
  · simp only [List.countP_append, hmkdir]
    rfl
  · rfl

lemma callSkipCnt_findOrAdd_of_not (host : Host) {msg : SipMessage} (ts : ℤ)
    (h : ¬addsMatching o msg s.world.ct) :
    (findOrAdd o host msg ts s).2.callSkipCnt = s.callSkipCnt ∧
      (findOrAddCalls o host msg ts s).countP IoEvent.isDumpOpen = 0 := by
  unfold addsMatching at h
  unfold findOrAddCalls
  rcases hid : msg.callId with _ | callId
  · simp only [findOrAdd, hid]
    exact ⟨trivial, rfl⟩
  rcases hf : s.world.ct.findByCallId callId with _ | i
  · by_cases hn : numberFilterMatched o msg
    · simp only [hid, hf, Option.isNone_none, hn, Bool.true_and] at h
      rw [findOrAdd_added hid hf hn host ts]
      simp only [hf, if_pos hn]
      rcases newCall_cases o host msg callId ts s.world.ct.addIdx (s.added msg callId ts) with
        ⟨-, he⟩ | ⟨hm, -⟩ | ⟨hm, -⟩
      · refine ⟨(congrArg State.callSkipCnt he).trans rfl, ?_⟩
        rw [List.countP_append, countP_newCallCalls, if_neg fun hc => h hc.1]
        rfl
      · exact absurd hm h
      · exact absurd hm h
    · rw [findOrAdd_refused hid hf hn host ts]
      simp only [hf, if_neg hn]
      exact ⟨trivial, rfl⟩
  · rw [findOrAdd_found hid hf o host ts]
    simp only [hf]
    exact ⟨trivial, rfl⟩

/-- What a new call whose method matches does to the counter. -/
lemma callSkipCnt_findOrAdd (host : Host) {msg : SipMessage} (ts : ℤ)
    (h : addsMatching o msg s.world.ct) :
    (findOrAdd o host msg ts s).2.callSkipCnt =
        (if s.callSkipCnt - 1 ≤ 0 then o.optCallSkipN else s.callSkipCnt - 1) ∧
      (findOrAddCalls o host msg ts s).countP IoEvent.isDumpOpen =
        if s.callSkipCnt - 1 ≤ 0 then 1 else 0 := by
  unfold addsMatching at h
  rcases hid : msg.callId with _ | callId <;> simp only [hid] at h
  · exact absurd h (by decide)
  rw [Bool.and_eq_true, Bool.and_eq_true, Option.isNone_iff_eq_none] at h
  obtain ⟨⟨hf, hn⟩, hm⟩ := h
  have hcalls : findOrAddCalls o host msg ts s =
      (s.world.ct.add callId msg.caller.toBytes msg.called.toBytes ts).2.2 ++
        newCallCalls o host msg callId ts (s.added msg callId ts) := by
    simp only [findOrAddCalls, hid, hf, if_pos hn]
  rw [findOrAdd_added hid hf hn host ts, hcalls, List.countP_append, countP_newCallCalls]
  have hcnt : (s.added msg callId ts).callSkipCnt = s.callSkipCnt := rfl
  rcases newCall_cases o host msg callId ts s.world.ct.addIdx (s.added msg callId ts) with
    ⟨hno, -⟩ | ⟨-, hskip, he⟩ | ⟨-, hdue, he⟩
  · exact absurd hm hno
  · rw [hcnt] at hskip he
    rw [if_neg (not_le.mpr hskip), if_neg (not_le.mpr hskip), hcnt,
      if_neg fun hc => not_le.mpr hskip hc.2]
    exact ⟨(congrArg State.callSkipCnt he).trans rfl, rfl⟩
  · rw [hcnt] at hdue
    rw [if_pos hdue, if_pos hdue, hcnt, if_pos ⟨hm, hdue⟩]
    exact ⟨(congrArg State.callSkipCnt he).trans rfl, rfl⟩

lemma countP_passCalls (s : State) (a : Input) : (passCalls s a).countP IoEvent.isDumpOpen = 0 := by
  rw [List.countP_eq_zero]
  intro e he
  unfold passCalls at he
  split at he
  · exact absurd he List.not_mem_nil
  · rcases mem_doCleanup he with ⟨g, rfl | rfl⟩ | ⟨path, rfl⟩ | ⟨c, rfl⟩ <;>
      exact Bool.false_ne_true

lemma countP_dumpCalls (file : Option Handle) (via : Via) (r : Record) (flushes : List Bool) :
    (file.toList.flatMap fun f => dumpCalls via f r flushes).countP IoEvent.isDumpOpen = 0 := by
  rw [List.countP_eq_zero]
  intro e he
  obtain ⟨f, -, he⟩ := List.mem_flatMap.mp he
  rcases List.mem_cons.mp he with rfl | he
  · exact Bool.false_ne_true
  · obtain ⟨_, -, rfl⟩ := List.mem_map.mp he
    exact Bool.false_ne_true

/-- **What an input opens, and what it does to the counter.** -/
lemma openings_step (o : Options) (host : Host) (s : State) (a : Input) :
    (openings o host s a = [] ∧ (inputCalls o host s a).countP IoEvent.isDumpOpen = 0 ∧
        ((loop o host).next s a).callSkipCnt = s.callSkipCnt) ∨
      (openings o host s a = [decide (s.callSkipCnt - 1 ≤ 0)] ∧
        (inputCalls o host s a).countP IoEvent.isDumpOpen =
          (if s.callSkipCnt - 1 ≤ 0 then 1 else 0) ∧
        ((loop o host).next s a).callSkipCnt =
          if s.callSkipCnt - 1 ≤ 0 then o.optCallSkipN else s.callSkipCnt - 1) := by
  cases a with
  | cleanup currtime =>
    refine Or.inl ⟨rfl, ?_, rfl⟩
    rw [inputCalls, packetCalls, List.append_nil]
    exact countP_passCalls s (.cleanup currtime)
  | packet p =>
    have hcnt := callSkipCnt_afterPass s (.packet p)
    obtain ⟨t, ht⟩ : ∃ t, t = afterPass s (.packet p) := ⟨_, rfl⟩
    have hnext : (loop o host).next s (.packet p) = (branch o p t.world).run o host p t := by
      rw [ht, ← dispatch_eq]
      rfl
    have hcalls : (inputCalls o host s (.packet p)).countP IoEvent.isDumpOpen =
        ((branch o p t.world).calls o host p t).countP IoEvent.isDumpOpen := by
      rw [inputCalls, List.countP_append, countP_passCalls, Nat.zero_add, packetCalls, ht]
    have hany : (inputCalls o host s (.packet p)).any IoEvent.isDumpOpen =
        decide (0 < (inputCalls o host s (.packet p)).countP IoEvent.isDumpOpen) := by
      rw [Bool.eq_iff_iff, List.any_eq_true, decide_eq_true_eq, List.countP_pos_iff]
    rw [← ht] at hcnt
    rw [openings, ← ht, hany, hcalls, hnext, ← hcnt]
    rcases hb : branch o p t.world with _ | ⟨aai, last⟩ | ⟨ip, f⟩ | ⟨ip, msg⟩
    · exact Or.inl ⟨rfl, rfl, rfl⟩
    · exact Or.inl ⟨rfl, countP_dumpCalls _ _ _ _, rfl⟩
    · refine Or.inl ⟨rfl, ?_, rfl⟩
      simp only [Branch.calls]
      split
      · exact countP_dumpCalls _ _ _ _
      · rfl
    · -- after its call has been found or added, a message opens nothing
      have hsip : ((Branch.sip ip msg).calls o host p t).countP IoEvent.isDumpOpen =
            (findOrAddCalls o host msg p.ts t).countP IoEvent.isDumpOpen ∧
          ((Branch.sip ip msg).run o host p t).callSkipCnt =
            (findOrAdd o host msg p.ts t).2.callSkipCnt := by
        simp only [Branch.calls, Branch.run, List.countP_append]
        rcases findOrAdd o host msg p.ts t with ⟨_ | i, t'⟩
        · exact ⟨rfl, rfl⟩
        · exact ⟨by rw [countP_dumpCalls, Nat.add_zero], rfl⟩
      simp only [Branch.message]
      rw [hsip.1, hsip.2]
      by_cases hadds : addsMatching o msg t.world.ct
      · obtain ⟨hstep, hopens⟩ := callSkipCnt_findOrAdd host p.ts hadds
        rw [if_pos hadds, hopens, hstep]
        refine Or.inr ⟨?_, rfl, rfl⟩
        by_cases hdue : t.callSkipCnt - 1 ≤ 0 <;> simp [hdue]
      · obtain ⟨hstep, hopens⟩ := callSkipCnt_findOrAdd_of_not host p.ts hadds
        rw [if_neg hadds, hopens, hstep]
        exact Or.inl ⟨rfl, rfl, rfl⟩

/-- An input whose openings are known counts them. -/
lemma Counted.next {n : ℕ} (h : Counted o n s) (host : Host) (a : Input) :
    openings o host s a = (List.range' n (openings o host s a).length).map
        (fun k => decide (k % o.skipN = 0)) ∧
      Counted o (n + (openings o host s a).length) ((loop o host).next s a) := by
  rcases openings_step o host s a with ⟨hopen, -, hnext⟩ | ⟨hopen, -, hnext⟩
  · rw [hopen]
    exact ⟨rfl, h.owns.loop a, hnext.trans h.callSkipCnt⟩
  · rw [hopen]
    refine ⟨by simp [h.callSkipCnt, o.skipCntAfter_due n], h.owns.loop a, ?_⟩
    rw [hnext, h.callSkipCnt, o.skipCntAfter_succ]
    rfl

/-! ### Runs -/

lemma counted_start (o : Options) : Counted o 0 o.start := by
  have hN := o.skipN_pos
  refine ⟨owns_start o, ?_⟩
  rw [Options.skipCntAfter, Nat.zero_add, Nat.mod_eq_of_lt (by omega)]
  have hstart : o.start.callSkipCnt = 1 := rfl
  omega

/-- There is one multiple of `N` among each `N` numbers from 0 on. -/
lemma count_multiples {N : ℕ} (hN : 0 < N) (m : ℕ) :
    ((List.range m).map fun k => decide (k % N = 0)).count true = (m + N - 1) / N := by
  induction m with
  | zero => exact (Nat.div_eq_of_lt (by omega)).symm
  | succ m ih =>
    have hlt := Nat.mod_lt (m + N - 1) hN
    have hdiv := Nat.div_add_mod (m + N - 1) N
    have hsucc : m + 1 + N - 1 = N * ((m + N - 1) / N) + ((m + N - 1) % N + 1) := by omega
    have hquot : (m + 1 + N - 1) / N = (m + N - 1) / N + ((m + N - 1) % N + 1) / N :=
      (congrArg (· / N) hsucc).trans (Nat.mul_add_div hN _ _)
    rw [List.range_succ, List.map_append, List.count_append, ih, hquot, List.map_singleton,
      mod_eq_succ (n := m) hN]
    split
    · rename_i heq
      rw [heq, Nat.div_self hN]
      rfl
    · rw [Nat.div_eq_of_lt (a := (m + N - 1) % N + 1) (by omega)]
      rfl

/-- **`-l N` records each `N`-th call.**  Among the calls that a run adds for messages whose method
matches, numbered from 0 in this order, `pcap_dump_open` is called for those whose number is a
multiple of `N`, and it is not called for anything else. -/
theorem every_nth_call_recorded (o : Options) (host : Host) (inputs : List Input) :
    let opened := (loop o host).collect (openings o host) o.start inputs
    opened = (List.range opened.length).map (fun k => decide (k % o.skipN = 0)) ∧
      ((loop o host).run o.start inputs).world.log.countP IoEvent.isDumpOpen =
        (opened.length + o.skipN - 1) / o.skipN := by
  intro opened
  have hflags : opened = (List.range opened.length).map (fun k => decide (k % o.skipN = 0)) := by
    rw [List.range_eq_range']
    exact Machine.collect_of_phase (M := loop o host) (P := Counted o)
      (fun _ s a h => h.next host a) (counted_start o) inputs
  refine ⟨hflags, ?_⟩
  have hcount : ((loop o host).run o.start inputs).world.log.countP IoEvent.isDumpOpen =
      opened.count true := by
    rw [log_run_loop]
    refine Machine.collect_rel (R := fun calls opened =>
      calls.countP IoEvent.isDumpOpen = opened.count true) (I := fun _ => True) rfl ?_
      (fun _ _ _ => trivial) ?_ trivial inputs
    · intro l l' m m' h h'
      rw [List.countP_append, List.count_append, h, h']
    · intro s a _
      rcases openings_step o host s a with ⟨hopen, hcalls, -⟩ | ⟨hopen, hcalls, -⟩
      · rw [hopen, hcalls]
        rfl
      · rw [hopen, hcalls]
        by_cases hdue : s.callSkipCnt - 1 ≤ 0 <;> simp [hdue]
  rw [hcount, hflags, count_multiples o.skipN_pos, List.length_map, List.length_range]

/-- With `-l 2` the second one of three calls is skipped. -/
example :
    let o : Options := { Options.raw with optCallSkipN := 2, callSkipN_pos := by decide }
    (loop o Host.numbering).collect (openings o Host.numbering) o.start
      (["x", "y", "z"].map fun callId => .packet (.captured 1000 (invite callId))) =
        [true, false, true] := by
  decide +kernel

end PcapSipDump
