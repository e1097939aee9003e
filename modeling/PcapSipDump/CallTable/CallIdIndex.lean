import PcapSipDump.CallTable.Cache

/-!
# The Call-ID cache against the scan

The build with caches answers `find_by_call_id` from a map from whole Call-IDs to indices, the
plain build by a scan for the length and the first 32 bytes.  Run side by side on one history
of additions, lookups and passes, the two agree exactly as long as no Call-ID of more than 32
bytes is added and no pass frees an element with a non-empty Call-ID (`callIdIndex_agrees_iff`):

* a longer Call-ID shares its key with others, which the scan takes for it and the map does not;
* a pass zeroes an element before it reads the Call-ID to drop from the map, so it drops the
  empty Call-ID and leaves the one of the call.
-/

namespace PcapSipDump

open Lib Lib.CString Lib.SlotTable

/-! ### Keys of short and long Call-IDs -/

/-- A Call-ID of at most 32 bytes has its key for itself. -/
lemma eq_of_keyOf_eq {callId callId' : Bytes} (hlen : callId.length ≤ 32)
    (h : keyOf callId' = keyOf callId) : callId' = callId := by
  simp only [keyOf, Prod.mk.injEq] at h
  obtain ⟨hl, hb⟩ := h
  have hmin : min callId.length 32 = callId.length := Nat.min_eq_left hlen
  rw [hl, hmin, List.take_length, ← hl, List.take_length] at hb
  exact hb

/-- A longer Call-ID shares its key with another one. -/
lemma exists_ne_keyOf_eq {callId : Bytes} (hlen : 32 < callId.length) :
    ∃ callId', callId' ≠ callId ∧ keyOf callId' = keyOf callId := by
  refine ⟨callId.set 32 (callId[32] + 1), fun h => ?_, ?_⟩
  · have hset : 32 < (callId.set 32 (callId[32] + 1)).length := by simpa using hlen
    have h32 : (callId.set 32 (callId[32] + 1))[32] = callId[32] := List.getElem_of_eq h _
    rw [List.getElem_set_self] at h32
    exact absurd h32 (by simp)
  · have hmin : min callId.length 32 = 32 := Nat.min_eq_right hlen.le
    have htake : (callId.set 32 (callId[32] + 1)).take 32 = callId.take 32 := by
      rw [List.take_set, List.set_eq_of_length_le (by simp)]
    simp [keyOf, hmin, htake]

/-- Every key of an element is the key of some Call-ID. -/
lemma CalltableElement.exists_keyOf_eq_key (e : CalltableElement) :
    ∃ callId, keyOf callId = e.key := by
  refine ⟨e.callId.toBytes.take e.callIdLen ++ List.replicate (e.callIdLen - 32) 0, ?_⟩
  have hlen : (e.callId.toBytes.take e.callIdLen ++
      List.replicate (e.callIdLen - 32) (0 : UInt8)).length = e.callIdLen := by
    simp only [List.length_append, List.length_take, Buf.length_toBytes, List.length_replicate]
    omega
  simp only [keyOf, key, Prod.mk.injEq]
  refine ⟨hlen, ?_⟩
  rw [hlen]
  rcases Nat.le_total e.callIdLen 32 with h | h
  · simp [h]
  · have htake : e.callId.toBytes.take e.callIdLen = e.callId.toBytes :=
      List.take_of_length_le (by simpa using h)
    rw [htake, Nat.min_eq_right h, List.take_append_of_le_length (by simp)]

/-! ### Both builds on one history -/

/-- The operations that histories of the Call-ID index are made of. -/
def TableOp.IsCallIdOp : TableOp → Prop
  | .find _ | .add _ _ _ _ | .cleanup _ => True
  | _ => False

/-- The plain build and the one with caches, run side by side on one history of additions,
each after a lookup of the plain build has failed, lookups and passes. -/
def callIdBuilds : Machine (Calltable × CachedCalltable) TableOp where
  next s op := (Calltable.plain.next s.1 op, cached.next s.2 op)
  allowed s op := op.IsCallIdOp ∧ Calltable.plain.allowed s.1 op

instance : ∀ op, Decidable (TableOp.IsCallIdOp op)
  | .find _ | .add _ _ _ _ | .cleanup _ => isTrue trivial
  | .write _ _ | .findIpPortSsrc _ _ _ => isFalse id

instance (s : Calltable × CachedCalltable) (op : TableOp) :
    Decidable (callIdBuilds.allowed s op) :=
  inferInstanceAs (Decidable (op.IsCallIdOp ∧ Calltable.plain.allowed s.1 op))

/-- Both builds find the same index for every Call-ID. -/
def CallIdsAgree (s : Calltable × CachedCalltable) : Prop :=
  ∀ callId, s.2.findByCallId callId = s.1.findByCallId callId

/-- The operations after which the builds still agree: an added Call-ID has at most 32 bytes,
and a pass frees no element with a non-empty Call-ID. -/
def CallIdCondition (s : Calltable × CachedCalltable) : TableOp → Prop
  | .add callId _ _ _ => callId.length ≤ 32
  | .cleanup currtime => ∀ i, s.1.due currtime (s.1.slot i) → (s.1.slot i).callIdLen = 0
  | _ => True

/-- Without registrations and flow lookups the vectors of the two builds are equal. -/
def SameTable (s : Calltable × CachedCalltable) : Prop :=
  s.2.toCalltable = s.1 ∧ s.1.TableInv

lemma SameTable.next {s : Calltable × CachedCalltable} {op : TableOp}
    (hop : callIdBuilds.allowed s op) (h : SameTable s) : SameTable (callIdBuilds.next s op) := by
  obtain ⟨ct, K⟩ := s
  obtain ⟨hsame, hinv⟩ := h
  obtain rfl : K.toCalltable = ct := hsame
  refine ⟨?_, hinv.next hop.2⟩
  cases op with
  | find callId => rfl
  | add callId caller callee time => rfl
  | cleanup currtime => exact K.toCalltable_doCleanup currtime
  | write i w => exact hop.1.elim
  | findIpPortSsrc addr port ssrc => exact hop.1.elim

/-- An addition keeps the agreement exactly when the Call-ID has at most 32 bytes. -/
lemma callIdsAgree_add {K : CachedCalltable} (hinv : K.TableInv)
    (h : CallIdsAgree (K.toCalltable, K)) {callId : Bytes}
    (hnone : K.toCalltable.findByCallId callId = none) (caller callee : Bytes) (time : ℤ) :
    (∀ callId', (K.add callId caller callee time).2.1.findByCallId callId' =
        (K.toCalltable.add callId caller callee time).2.1.findByCallId callId') ↔
      callId.length ≤ 32 := by
  have hplain := hinv.findByCallId_add hnone caller callee time
  have hcached : ∀ callId', (K.add callId caller callee time).2.1.findByCallId callId' =
      if callId' = callId then some K.addIdx else K.toCalltable.findByCallId callId' := by
    intro callId'
    rw [← h callId']
    exact Function.update_apply K.callIdCache callId (some K.addIdx) callId'
  constructor
  · -- another Call-ID with the same length and first 32 bytes tells the builds apart
    intro hagree
    by_contra hlen
    obtain ⟨callId', hne, hkey⟩ := exists_ne_keyOf_eq (Nat.lt_of_not_le hlen)
    have hlookup : K.toCalltable.findByCallId callId' = none := by
      rw [Calltable.findByCallId_eq_lookup, hkey, ← Calltable.findByCallId_eq_lookup]
      exact hnone
    have heq := hagree callId'
    rw [hcached, hplain, if_neg hne, if_pos hkey, hlookup] at heq
    exact absurd heq (by simp)
  · intro hlen callId'
    rw [hcached, hplain]
    by_cases hk : keyOf callId' = keyOf callId
    · rw [if_pos hk, if_pos (eq_of_keyOf_eq hlen hk)]
    · have hne : callId' ≠ callId := fun he => hk (congrArg keyOf he)
      rw [if_neg hk, if_neg hne]

/-- A pass keeps the agreement exactly when it frees no element with a non-empty Call-ID. -/
lemma callIdsAgree_doCleanup {K : CachedCalltable} (hinv : K.TableInv)
    (h : CallIdsAgree (K.toCalltable, K)) (currtime : ℤ) :
    (∀ callId, (K.doCleanup currtime).1.findByCallId callId =
        (K.toCalltable.doCleanup currtime).1.findByCallId callId) ↔
      ∀ i, K.due currtime (K.slot i) → (K.slot i).callIdLen = 0 := by
  have hplain := hinv.findByCallId_doCleanup currtime
  have hcached : ∀ callId, (K.doCleanup currtime).1.findByCallId callId =
      if callId = [] ∧ K.table.any (K.due currtime) then none
      else K.toCalltable.findByCallId callId := by
    intro callId
    rw [← h callId]
    exact K.callIdCache_doCleanup currtime callId
  constructor
  · -- the map keeps the Call-ID of the element, which the scan does not find any more
    intro hagree i hd
    by_contra hlen
    obtain ⟨callId, hkey⟩ := (K.slot i).exists_keyOf_eq_key
    have hne : callId ≠ [] := by
      rintro rfl
      exact hlen (congrArg Prod.fst hkey).symm
    have hu : (K.slot i).isUsed := Calltable.used_of_due hd
    have hfind : K.toCalltable.findByCallId callId = some i :=
      hinv.findByCallId_eq_some_iff.mpr ⟨hu, hkey.symm⟩
    have heq := hagree callId
    rw [hcached, hplain, if_neg (fun hc => hne hc.1), hfind] at heq
    simp [Option.filter, hd] at heq
  · intro hcond callId
    rw [hcached, hplain]
    rcases hfind : K.toCalltable.findByCallId callId with _ | i
    · simp
    · obtain ⟨-, hkey⟩ := hinv.findByCallId_eq_some_iff.mp hfind
      by_cases hnil : callId = []
      · subst hnil
        by_cases hany : K.table.any (K.due currtime)
        · -- the only element a pass may free is the one with the empty Call-ID
          obtain ⟨j, hj⟩ := (K.any_due_iff currtime).mp hany
          have hju : (K.slot j).isUsed := Calltable.used_of_due hj
          have hjkey : (K.slot j).key = keyOf [] := by
            simp [CalltableElement.key, keyOf, hcond j hj]
          have hjfind : K.toCalltable.findByCallId [] = some j :=
            hinv.findByCallId_eq_some_iff.mpr ⟨hju, hjkey⟩
          obtain rfl : i = j := by simpa [hfind] using hjfind
          simp [hany, Option.filter, hj]
        · have hi : K.due currtime (K.slot i) = false := by
            by_contra hi
            exact hany ((K.any_due_iff currtime).mpr ⟨i, by simpa using hi⟩)
          simp [hany, Option.filter, hi]
      · have hi : K.due currtime (K.slot i) = false := by
          by_contra hi
          have hlen : callId.length = 0 :=
            (congrArg Prod.fst hkey).symm.trans (hcond i (by simpa using hi))
          exact hnil (List.eq_nil_of_length_eq_zero hlen)
        simp [hnil, Option.filter, hi]

/-- **When the Call-ID cache agrees with the scan.**  On a history of additions, lookups and
passes from the empty table the two builds find the same index for every Call-ID in every state
exactly when every added Call-ID has at most 32 bytes and every pass frees only elements with
the empty Call-ID. -/
theorem callIdIndex_agrees_iff (eraseNonT38 : Bool) (optAbsoluteTimeout : ℤ)
    (ops : List TableOp)
    (hleg : callIdBuilds.Legal (Calltable.create eraseNonT38 optAbsoluteTimeout,
      CachedCalltable.create eraseNonT38 optAbsoluteTimeout) ops) :
    callIdBuilds.Always CallIdsAgree (Calltable.create eraseNonT38 optAbsoluteTimeout,
        CachedCalltable.create eraseNonT38 optAbsoluteTimeout) ops ↔
      callIdBuilds.Along CallIdCondition (Calltable.create eraseNonT38 optAbsoluteTimeout,
        CachedCalltable.create eraseNonT38 optAbsoluteTimeout) ops := by
  refine Machine.always_iff_along (fun s op hop h _ _ => SameTable.next hop h)
    (fun s op hop hsame hagree => ?_) hleg
    ⟨rfl, Calltable.tableInv_create eraseNonT38 optAbsoluteTimeout⟩ fun callId => rfl
  obtain ⟨ct, K⟩ := s
  obtain ⟨hct, hinv⟩ := hsame
  obtain rfl : K.toCalltable = ct := hct
  cases op with
  | find callId => exact iff_of_true hagree trivial
  | add callId caller callee time => exact callIdsAgree_add hinv hagree hop.2 caller callee time
  | cleanup currtime => exact callIdsAgree_doCleanup hinv hagree currtime
  | write i w => exact hop.1.elim
  | findIpPortSsrc addr port ssrc => exact hop.1.elim

/-- Nothing is freed and the Call-ID is short: both builds agree all the way. -/
theorem callIdIndex_agrees_shortCall :
    callIdBuilds.Always CallIdsAgree
      (Calltable.create false 3600, CachedCalltable.create false 3600)
      [.add (ascii "a") [] [] 1000, .find (ascii "a"), .cleanup 1200] := by
  refine (callIdIndex_agrees_iff false 3600 _ (by decide +kernel)).mpr
    ⟨show (ascii "a").length ≤ 32 by decide, trivial, fun i hd => ?_, trivial⟩
  have hany := (Calltable.any_due_iff _ _).mpr ⟨i, hd⟩
  exact absurd hany (by decide +kernel)

/-- After the pass that frees a call the map still has its Call-ID; and of two Call-IDs that
share their length and their first 32 bytes the scan finds the second under the first. -/
theorem callIdIndex_disagrees :
    (let ops : List TableOp := [.add (ascii "a") [] [] 1000, .cleanup 1400]
      let s := callIdBuilds.run (Calltable.create false 3600, CachedCalltable.create false 3600) ops
      callIdBuilds.Legal (Calltable.create false 3600, CachedCalltable.create false 3600) ops ∧
        s.1.findByCallId (ascii "a") = none ∧ s.2.findByCallId (ascii "a") = some 0) ∧
    (let ops : List TableOp := [.add (List.replicate 32 65 ++ [66]) [] [] 1000]
      let s := callIdBuilds.run (Calltable.create false 3600, CachedCalltable.create false 3600) ops
      callIdBuilds.Legal (Calltable.create false 3600, CachedCalltable.create false 3600) ops ∧
        s.1.findByCallId (List.replicate 32 65 ++ [67]) = some 0 ∧
        s.2.findByCallId (List.replicate 32 65 ++ [67]) = none) := by
  decide +kernel

end PcapSipDump
