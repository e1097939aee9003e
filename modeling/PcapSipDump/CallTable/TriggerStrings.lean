import PcapSipDump.CallTable.Expiry
import PcapSipDump.CallTable.HighWater

/-!
# The strings of the close trigger

`calltable::add` fills the fields for the caller, the callee and the Call-ID with `memcpy`, so a
name of 16 bytes or more leaves its field without a terminator.  When the close trigger is called,
the string that starts in such a field goes on with the next one: the callee behind the caller, and
the Call-ID behind the callee.  Behind the Call-ID there is padding, which is zero.
-/

namespace PcapSipDump

open Lib Lib.CString Lib.SlotTable

variable {callId caller callee : Bytes} {e e' : CalltableElement}

/-! ### The strings in an element -/

/-- The element has the strings that `calltable::add` has copied into one that was all zero. -/
structure HoldsCopies (callId caller callee : Bytes) (e : CalltableElement) : Prop where
  caller : e.caller = memcpy (fun _ => 0) caller 16
  callee : e.callee = memcpy (fun _ => 0) callee 16
  callId : e.callId = memcpy (fun _ => 0) callId 32

/-- Every field has room for the terminator of its string, or the string behind it is empty, and
there is no NUL in the part of the Call-ID that is kept. -/
structure EndInFields (callId caller callee : Bytes) : Prop where
  caller : (cstr caller).length < 16 ∨ cstr callee = []
  callee : (cstr callee).length < 16 ∨ callId = []
  callId : 0 ∉ callId.take 32

lemma holdsCopies_init (callId caller callee : Bytes) (time : ℤ) :
    HoldsCopies callId caller callee
      (CalltableElement.zero.init callId caller callee time) := by
  refine ⟨rfl, rfl, ?_⟩
  -- behind the end of the Call-ID the copy would be of zeros
  funext i
  show (if i.val < min callId.length 32 then callId.getD i 0 else 0) =
    if i.val < 32 then callId.getD i 0 else 0
  rw [if_pos i.isLt]
  split
  · rfl
  · have hi : callId.length ≤ i := by omega
    rw [List.getD_eq_getElem?_getD, List.getElem?_eq_none hi, Option.getD_none]

lemma HoldsCopies.of_sameEntry (h : HoldsCopies callId caller callee e)
    (hsame : Calltable.SameEntry e e') : HoldsCopies callId caller callee e' :=
  ⟨hsame.caller.trans h.caller, hsame.callee.trans h.callee, hsame.callId.trans h.callId⟩

namespace HoldsCopies

lemma callIdStr_eq (h : HoldsCopies callId caller callee e) :
    e.callIdStr = cstr (callId.take 32) := by
  have hcopy := cstr_memcpy (fun _ => 0 : Buf 32) callId []
  rw [List.append_nil, ← h.callId, ← CalltableElement.callIdStr] at hcopy
  rw [hcopy, cstr_take]
  split
  · rename_i hshort
    exact (List.take_of_length_le hshort.le).symm
  · exact List.append_nil _

lemma calleeStr_eq (h : HoldsCopies callId caller callee e) : e.calleeStr =
    if (cstr callee).length < 16 then cstr callee else (cstr callee).take 16 ++ e.callIdStr := by
  rw [CalltableElement.calleeStr, h.callee, cstr_memcpy, ← CalltableElement.callIdStr]

lemma callerStr_eq (h : HoldsCopies callId caller callee e) : e.callerStr =
    if (cstr caller).length < 16 then cstr caller else (cstr caller).take 16 ++ e.calleeStr := by
  rw [CalltableElement.callerStr, List.append_assoc, h.caller, cstr_memcpy,
    ← CalltableElement.calleeStr]

end HoldsCopies

/-- A string that is cut to its field, and what follows it. -/
lemma cut_eq_iff {s behind : Bytes} :
    (if s.length < 16 then s else s.take 16 ++ behind) = s.take 16 ↔
      s.length < 16 ∨ behind = [] := by
  split
  · rename_i hs
    exact iff_of_true (List.take_of_length_le hs.le).symm (Or.inl hs)
  · rename_i hs
    rw [List.append_right_eq_self]
    exact (or_iff_right hs).symm

lemma cut_eq_nil_iff {s behind : Bytes} :
    (if s.length < 16 then s else s.take 16 ++ behind) = [] ↔ s = [] := by
  split
  · rfl
  · rename_i hs
    refine iff_of_false (fun h => hs ?_) (fun h => hs ?_)
    · have hnil : s = [] :=
        (List.take_eq_nil_iff.mp (List.append_eq_nil_iff.mp h).1).resolve_left (by decide)
      rw [hnil]
      decide
    · rw [h]
      decide

/-- The strings that start in the three fields are the copied ones, cut to the fields, exactly when
they end in their fields. -/
lemma HoldsCopies.strings_iff (h : HoldsCopies callId caller callee e) :
    (e.callerStr = (cstr caller).take 16 ∧ e.calleeStr = (cstr callee).take 16 ∧
        e.callIdStr = callId.take 32) ↔ EndInFields callId caller callee := by
  have hid : e.callIdStr = callId.take 32 ↔ 0 ∉ callId.take 32 := by
    rw [h.callIdStr_eq]
    constructor
    · intro heq hnul
      rw [← heq] at hnul
      exact ne_zero_of_mem_cstr hnul rfl
    · intro hnul
      refine cstr_eq_self fun c hc => ?_
      rintro rfl
      exact hnul hc
  have hcallee : e.calleeStr = (cstr callee).take 16 ↔
      (cstr callee).length < 16 ∨ e.callIdStr = [] := by
    rw [h.calleeStr_eq, cut_eq_iff]
  have hcaller : e.callerStr = (cstr caller).take 16 ↔
      (cstr caller).length < 16 ∨ cstr callee = [] := by
    rw [h.callerStr_eq, cut_eq_iff, h.calleeStr_eq, cut_eq_nil_iff]
  rw [hcaller, hcallee]
  constructor
  · rintro ⟨hfrom, hto, hcall⟩
    refine ⟨hfrom, hto.imp_right fun hnil => ?_, hid.mp hcall⟩
    rw [hcall, List.take_eq_nil_iff] at hnil
    exact hnil.resolve_left (by decide)
  · rintro ⟨hfrom, hto, hcall⟩
    refine ⟨hfrom, hto.imp_right ?_, hid.mpr hcall⟩
    rintro rfl
    rw [h.callIdStr_eq]
    rfl

/-! ### The close trigger -/

namespace Calltable

/-- The element that has just been taken for a call holds copies of its strings. -/
lemma holdsCopies_add {ct : Calltable} (h : ct.UnusedZero) (callId caller callee : Bytes)
    (time : ℤ) : ((ct.add callId caller callee time).2.1.slot ct.addIdx).isUsed ∧
      HoldsCopies callId caller callee
        ((ct.add callId caller callee time).2.1.slot ct.addIdx) := by
  rw [slot_add, if_pos rfl, h _ ct.isUsed_addIdx]
  exact ⟨rfl, holdsCopies_init callId caller callee time⟩

/-- The pass at `currtime` calls the close trigger for the element with index `i`, with these
strings. -/
def ClosesWith (ct : Calltable) (currtime : ℤ) (i : ℕ) (caller callee callId : Bytes) : Prop :=
  ∃ fn time, .trigger .close fn caller callee callId time ∈ ct.fileEvents currtime i

/-- The call of a trigger in a pass is made with the strings of the element. -/
lemma ClosesWith.eq {ct : Calltable} {currtime : ℤ} {i : ℕ} {from' to' id : Bytes}
    (h : ct.ClosesWith currtime i from' to' id) :
    (ct.slot i).isUsed ∧ from' = (ct.slot i).callerStr ∧ to' = (ct.slot i).calleeStr ∧
      id = (ct.slot i).callIdStr := by
  obtain ⟨fn, time, hmem⟩ := h
  by_cases hexp : ct.Expires currtime i
  · rcases hf : (ct.slot i).fPcap with _ | f
    · rw [fileEvents_of_no_file hf] at hmem
      exact absurd hmem List.not_mem_nil
    · rw [fileEvents_of_file hexp hf] at hmem
      refine ⟨hexp.1, ?_⟩
      split at hmem
      · simp at hmem
      · simp only [CalltableElement.triggerEvent, List.mem_cons, List.not_mem_nil, reduceCtorEq,
          false_or, or_false, IoEvent.trigger.injEq] at hmem
        exact ⟨hmem.2.2.1, hmem.2.2.2.1, hmem.2.2.2.2.1⟩
  · rw [fileEvents_of_not_expires hexp] at hmem
    exact absurd hmem List.not_mem_nil

/-- The calls for an element are among those of the pass. -/
lemma ClosesWith.mem {ct : Calltable} {currtime : ℤ} {i : ℕ} {from' to' id : Bytes}
    (h : ct.ClosesWith currtime i from' to' id) :
    ∃ fn time, .trigger .close fn from' to' id time ∈ (ct.doCleanup currtime).2 := by
  obtain ⟨fn, time, hmem⟩ := h
  have hlt : i < ct.table.length := lt_length_of_used (ClosesWith.eq ⟨fn, time, hmem⟩).1
  rw [doCleanup_snd]
  exact ⟨fn, time, List.mem_flatMap.mpr ⟨i, List.mem_range.mpr hlt, hmem⟩⟩

/-- **The strings of the close trigger.**  When a pass calls the close trigger for an entry, at any
time after `add` has created it and before another pass has freed it, the strings are the caller,
the callee and the Call-ID, each cut to its field, if and only if each string ends in its field or
has an empty one behind it, and the part of the Call-ID that is kept has no NUL. -/
theorem close_trigger_strings_iff (eraseNonT38 : Bool) (optAbsoluteTimeout : ℤ)
    (pre post : List TableOp) (callId caller callee : Bytes) (time currtime : ℤ)
    (callerArg calleeArg callIdArg : Bytes)
    (hleg : plain.Legal (create eraseNonT38 optAbsoluteTimeout) pre) :
    let added := (plain.run (create eraseNonT38 optAbsoluteTimeout) pre).add callId caller callee
      time
    let ct := plain.run added.2.1 post
    plain.Along (fun ct op => ¬Frees added.1 ct op) added.2.1 post →
      ct.ClosesWith currtime added.1 callerArg calleeArg callIdArg →
      (∃ fn time', .trigger .close fn callerArg calleeArg callIdArg time' ∈
          (ct.doCleanup currtime).2) ∧
        ((callerArg = (cstr caller).take 16 ∧ calleeArg = (cstr callee).take 16 ∧
            callIdArg = callId.take 32) ↔ EndInFields callId caller callee) := by
  intro added ct hkeep hclose
  have hinv := tableInv_run (tableInv_create eraseNonT38 optAbsoluteTimeout) hleg
  obtain ⟨hused, hadded⟩ := holdsCopies_add hinv.unusedZero callId caller callee time
  have hcopies : HoldsCopies callId caller callee (ct.slot added.1) :=
    hadded.of_sameEntry (sameEntry_run hused hkeep)
  obtain ⟨-, hcaller, hcallee, hcallId⟩ := hclose.eq
  refine ⟨hclose.mem, ?_⟩
  rw [hcaller, hcallee, hcallId]
  exact hcopies.strings_iff

/-- The file of the first call. -/
def firstFile : List TableOp := [.write 0 (.file (some 1) fun _ => 0)]

/-- The close trigger for a call from alice to bob. -/
theorem close_trigger_strings_alice :
    let ct := plain.run ((create false 3600).add (ascii "x") (ascii "alice") (ascii "bob") 1000).2.1
      firstFile
    (∃ fn time, .trigger .close fn (ascii "alice") (ascii "bob") (ascii "x") time ∈
        (ct.doCleanup 9000).2) ∧
      ascii "alice" = (cstr (ascii "alice")).take 16 ∧ ascii "bob" = (cstr (ascii "bob")).take 16 ∧
        ascii "x" = (ascii "x").take 32 := by
  intro ct
  have hclose : ct.ClosesWith 9000 0 (ascii "alice") (ascii "bob") (ascii "x") :=
    ⟨[], 1000, by decide +kernel⟩
  have h := close_trigger_strings_iff false 3600 [] firstFile (ascii "x") (ascii "alice")
    (ascii "bob") 1000 9000 _ _ _ trivial ⟨id, trivial⟩ hclose
  exact ⟨h.1, h.2.mpr ⟨Or.inl (by decide), Or.inl (by decide), by decide⟩⟩

/-- The caller has 16 characters, and the trigger gets the callee behind them. -/
theorem close_trigger_strings_false :
    ¬∀ (eraseNonT38 : Bool) (optAbsoluteTimeout : ℤ) (pre post : List TableOp)
      (callId caller callee : Bytes) (time currtime : ℤ) (callerArg calleeArg callIdArg : Bytes),
      plain.Legal (create eraseNonT38 optAbsoluteTimeout) pre →
      let added := (plain.run (create eraseNonT38 optAbsoluteTimeout) pre).add callId caller callee
        time
      let ct := plain.run added.2.1 post
      plain.Along (fun ct op => ¬Frees added.1 ct op) added.2.1 post →
        ct.ClosesWith currtime added.1 callerArg calleeArg callIdArg →
        callerArg = (cstr caller).take 16 ∧ calleeArg = (cstr callee).take 16 ∧
          callIdArg = callId.take 32 := by
  intro h
  have hclose : (plain.run ((create false 3600).add (ascii "x") (ascii "abcdefghijklmnop")
      (ascii "bob") 1000).2.1 firstFile).ClosesWith 9000 0 (ascii "abcdefghijklmnopbob")
      (ascii "bob") (ascii "x") := ⟨[], 1000, by decide +kernel⟩
  have hcaller := (h false 3600 [] firstFile (ascii "x") (ascii "abcdefghijklmnop") (ascii "bob")
    1000 9000 _ _ _ trivial ⟨id, trivial⟩ hclose).1
  exact absurd hcaller (by decide)

end Calltable

end PcapSipDump
