import PcapSipDump.Capture.SipText

/-!
# The method of a request

`get_method` copies the first nine bytes of the payload and plants a blank behind them, so that
the search for a blank always has an end.  The blank that it finds need not be one of the payload,
and it may be the first byte.
-/

namespace PcapSipDump

open Lib.CString

/-- The store `b[k] = c`. -/
def put {n : ℕ} (b : Buf n) (k : ℕ) (c : UInt8) : Buf n := fun i => if i.val = k then c else b i

/-- `get_method` with its buffer, the one that `main` has for it. -/
def getMethodInto (data : Bytes) (sipMethod : Buf 10) : Bool × Buf 10 :=
  let sipMethod := put (memcpy sipMethod data 9) 9 32
  match strchr sipMethod.toBytes 32 with
  | some p =>
      let sipMethod := put sipMethod p 0
      if (sipMethod.toBytes.take p).all isupper then (true, sipMethod)
      else (false, put sipMethod 0 0)
  | none => (false, put sipMethod 0 0)

/-- The payload starts with the method `m` and a blank, as a request does. -/
structure IsMethodToken (m data : Bytes) : Prop where
  upper : ∀ c ∈ m, isupper c
  ne_nil : m ≠ []
  length_le : m.length ≤ 9
  starts : m ++ [32] <+: data

/-- `get_method` returns true and stores the method of a request; otherwise it returns false and
stores the empty string. -/
def ReportsMethod (data : Bytes) (sipMethod : Buf 10) : Prop :=
  (∀ m, (getMethodInto data sipMethod).1 = true ∧
      cstr (getMethodInto data sipMethod).2.toBytes = m ↔ IsMethodToken m data) ∧
    ((∀ m, ¬IsMethodToken m data) → (getMethodInto data sipMethod).1 = false ∧
      cstr (getMethodInto data sipMethod).2.toBytes = [])

/-! ### The buffer -/

/-- The nine bytes that are copied. -/
def methodBytes (data : Bytes) : Bytes := (data ++ List.replicate 9 0).take 9

lemma length_methodBytes (data : Bytes) : (methodBytes data).length = 9 := by
  simp [methodBytes]

lemma toBytes_put_memcpy (data : Bytes) (sipMethod : Buf 10) :
    Buf.toBytes (put (memcpy sipMethod data 9) 9 32) = methodBytes data ++ [32] := by
  apply List.ext_getElem
  · simp [length_methodBytes]
  · intro i hi hi'
    rw [Buf.length_toBytes] at hi
    by_cases h9 : i = 9
    · subst h9
      simp [Buf.toBytes, put, methodBytes]
    · have hlt : i < 9 := by omega
      have hlen := length_methodBytes data
      rw [List.getElem_append_left (by omega)]
      simp only [Buf.toBytes, List.getElem_ofFn, put, h9, if_false, memcpy, hlt, if_true,
        methodBytes, List.getElem_take, List.getElem_append, List.getElem_replicate]
      split
      · rename_i h
        rw [List.getD_eq_getElem?_getD, List.getElem?_eq_getElem h, Option.getD_some]
      · rename_i h
        rw [List.getD_eq_getElem?_getD, List.getElem?_eq_none (by omega), Option.getD_none]

lemma toBytes_put {n : ℕ} (b : Buf n) (k : ℕ) (c : UInt8) :
    Buf.toBytes (put b k c) = b.toBytes.set k c := by
  apply List.ext_getElem
  · simp
  · intro i hi hi'
    simp [Buf.toBytes, put, List.getElem_set, eq_comm]

/-- A store at the end of a known part of the array. -/
lemma toBytes_put_append {n : ℕ} {b : Buf n} {s t : Bytes} {c : UInt8}
    (h : b.toBytes = s ++ c :: t) (d : UInt8) :
    Buf.toBytes (put b s.length d) = s ++ d :: t := by
  rw [toBytes_put, h, List.set_append_right _ _ (le_refl _), Nat.sub_self, List.set_cons_zero]

lemma cstr_put_zero {n : ℕ} {b : Buf n} (hn : 0 < n) : cstr (Buf.toBytes (put b 0 0)) = [] := by
  obtain ⟨k, rfl⟩ : ∃ k, n = k + 1 := ⟨n - 1, by omega⟩
  rw [toBytes_put, Buf.toBytes, List.ofFn_succ, List.set_cons_zero]
  rfl

/-- A planted separator ends the first field. -/
lemma append_sentinel (d : UInt8) (s : Bytes) :
    ∃ rest, s ++ [d] = s.takeWhile (· ≠ d) ++ d :: rest := by
  induction s with
  | nil => exact ⟨[], rfl⟩
  | cons c s ih =>
    by_cases hc : c = d
    · exact ⟨s ++ [d], by simp [hc]⟩
    · obtain ⟨rest, ih⟩ := ih
      refine ⟨rest, ?_⟩
      rw [List.takeWhile_cons_of_pos (by simpa using hc), List.cons_append, ih, List.cons_append]

lemma isupper_ne {c : UInt8} (h : isupper c) : c ≠ 0 ∧ c ≠ 32 := by
  constructor <;> rintro rfl <;> exact absurd h (by decide)

/-- What `get_method` returns and stores is the method of the model of the capture loop. -/
lemma getMethodInto_eq (data : Bytes) (sipMethod : Buf 10) :
    (getMethodInto data sipMethod).1 = (getMethod data).isSome ∧
      cstr (getMethodInto data sipMethod).2.toBytes = (getMethod data).getD [] := by
  obtain ⟨rest, hsplit⟩ := append_sentinel 32 (methodBytes data)
  have hbuf := toBytes_put_memcpy data sipMethod
  rw [hsplit] at hbuf
  set token := (methodBytes data).takeWhile (· ≠ 32) with htoken
  have h32 : 32 ∉ token := fun h => by simpa using List.mem_takeWhile_imp h
  have hmethod : getMethod data = if token.all isupper then some token else none := rfl
  by_cases hnul : 0 ∈ token
  · -- the search stops at the NUL
    obtain ⟨before, behind, htok⟩ := List.append_of_mem hnul
    have hfind : strchr (Buf.toBytes (put (memcpy sipMethod data 9) 9 32)) 32 = none := by
      rw [hbuf, htok, List.append_assoc, List.cons_append]
      exact strchr_eq_none (fun h => h32 (htok ▸ List.mem_append_left _ h)) _
    have hupper : token.all isupper = false := by
      rw [List.all_eq_false]
      exact ⟨0, hnul, by decide⟩
    rw [getMethodInto, hmethod, hupper]
    simp only [hfind]
    exact ⟨rfl, cstr_put_zero (by decide)⟩
  · have hne : ∀ c ∈ token, c ≠ 0 := fun c hc h => hnul (h ▸ hc)
    have hfind : strchr (Buf.toBytes (put (memcpy sipMethod data 9) 9 32)) 32 =
        some token.length := by
      rw [hbuf]
      exact strchr_append hne (by decide) h32 _
    have hput := toBytes_put_append hbuf 0
    have htake : (Buf.toBytes (put (put (memcpy sipMethod data 9) 9 32) token.length 0)).take
        token.length = token := by
      rw [hput, List.take_left]
    rw [getMethodInto, hmethod]
    simp only [hfind, htake]
    by_cases hupper : token.all isupper
    · simp only [hupper, if_true, hput]
      exact ⟨rfl, cstr_append_nul hne _⟩
    · simp only [hupper]
      exact ⟨rfl, cstr_put_zero (by decide)⟩

/-- So the reports of `get_method` are right exactly when the model reads the method of each
request, and no other. -/
lemma reportsMethod_iff {data : Bytes} {sipMethod : Buf 10} :
    ReportsMethod data sipMethod ↔ ∀ m, getMethod data = some m ↔ IsMethodToken m data := by
  obtain ⟨hret, hstored⟩ := getMethodInto_eq data sipMethod
  have hsome : ∀ m, ((getMethodInto data sipMethod).1 = true ∧
      cstr (getMethodInto data sipMethod).2.toBytes = m) ↔ getMethod data = some m := by
    intro m
    rw [hret, hstored]
    rcases getMethod data with _ | m' <;> simp
  simp only [ReportsMethod, hsome]
  refine ⟨fun h => h.1, fun h => ⟨h, fun hno => ?_⟩⟩
  rw [hret, hstored]
  rcases hm : getMethod data with _ | m
  · exact ⟨rfl, rfl⟩
  · exact absurd ((h m).mp hm) (hno m)

/-! ### The first token -/

section Token

variable {data m : Bytes}

lemma methodBytes_eq_take (hlen : 9 ≤ data.length) : methodBytes data = data.take 9 :=
  List.take_append_of_le_length hlen

lemma getMethod_eq_some_iff (hlen : 9 ≤ data.length) : getMethod data = some m ↔
    (data.take 9).takeWhile (· ≠ 32) = m ∧ ∀ c ∈ m, isupper c := by
  have hmethod : getMethod data = if ((methodBytes data).takeWhile (· ≠ 32)).all isupper then
    some ((methodBytes data).takeWhile (· ≠ 32)) else none := rfl
  rw [hmethod, methodBytes_eq_take hlen, Option.ite_none_right_eq_some, List.all_eq_true,
    Option.some.injEq]
  constructor
  · rintro ⟨hupper, rfl⟩
    exact ⟨rfl, hupper⟩
  · rintro ⟨rfl, hupper⟩
    exact ⟨hupper, rfl⟩

/-- The method of a request is found. -/
lemma IsMethodToken.getMethod_eq (h : IsMethodToken m data) (hlen : 9 ≤ data.length) :
    getMethod data = some m := by
  refine (getMethod_eq_some_iff hlen).mpr ⟨?_, h.upper⟩
  have hpos : ∀ c ∈ m, decide (c ≠ 32) = true :=
    fun c hc => decide_eq_true (isupper_ne (h.upper c hc)).2
  obtain ⟨rest, rfl⟩ := h.starts
  rw [List.append_assoc, List.take_append, List.take_of_length_le h.length_le,
    List.takeWhile_append_of_pos hpos]
  rcases 9 - m.length with _ | k
  · simp
  · simp

/-- What is found is the method of a request, if the blank behind it is one of the payload. -/
lemma isMethodToken_of_getMethod (h : getMethod data = some m) (hlen : 10 ≤ data.length)
    (hne : m ≠ []) (hblank : m.length = 9 → data[9]? = some 32) : IsMethodToken m data := by
  obtain ⟨hm, hupper⟩ := (getMethod_eq_some_iff (by omega)).mp h
  have hsplit : (data.take 9) = m ++ (data.take 9).dropWhile (· ≠ 32) := by
    rw [← hm]
    exact List.takeWhile_append_dropWhile.symm
  have hlength := congrArg List.length hsplit
  rw [List.length_append, List.length_take, min_eq_left (by omega)] at hlength
  refine ⟨hupper, hne, by omega, ?_⟩
  rw [← List.take_append_drop 9 data]
  rcases hdrop : (data.take 9).dropWhile (· ≠ 32) with _ | ⟨c, rest⟩
  · -- all nine bytes are capitals
    rw [hdrop, List.append_nil] at hsplit
    have h9 : m.length = 9 := by rw [← hsplit]; simp; omega
    have hget := hblank h9
    rw [hsplit, List.prefix_append_right_inj, List.drop_eq_getElem?_toList_append, hget]
    exact List.prefix_append _ _
  · have hc := List.head?_dropWhile_not (· ≠ (32 : UInt8)) (data.take 9)
    rw [hdrop] at hc
    obtain rfl : c = 32 := by simpa using hc
    rw [hsplit, hdrop, List.append_assoc, List.prefix_append_right_inj]
    exact List.prefix_append [32] _

end Token

/-- **The method of a request.**  For a payload of at least ten bytes, `get_method` reports the
method of each request and nothing else if and only if the payload does not start with a blank, and
after nine capitals the tenth byte is a blank. -/
theorem get_method_iff {data : Bytes} (hlen : 10 ≤ data.length) (sipMethod : Buf 10) :
    ReportsMethod data sipMethod ↔
      data.head? ≠ some 32 ∧ ((∀ c ∈ data.take 9, isupper c) → data[9]? = some 32) := by
  rw [reportsMethod_iff]
  constructor
  · intro h
    refine ⟨fun hhead => ?_, fun hupper => ?_⟩
    · -- an empty method
      obtain ⟨rest, rfl⟩ := List.head?_eq_some_iff.mp hhead
      have hempty : getMethod (32 :: rest) = some [] :=
        (getMethod_eq_some_iff (by omega)).mpr ⟨by simp, by simp⟩
      exact ((h []).mp hempty).ne_nil rfl
    · have hall : (data.take 9).takeWhile (· ≠ 32) = data.take 9 :=
        List.takeWhile_eq_self_iff.mpr fun c hc => decide_eq_true (isupper_ne (hupper c hc)).2
      have htoken := (h (data.take 9)).mp ((getMethod_eq_some_iff (by omega)).mpr ⟨hall, hupper⟩)
      obtain ⟨rest, hrest⟩ := htoken.starts
      have h9 : (data.take 9).length = 9 := by
        rw [List.length_take]
        omega
      rw [← hrest, List.append_assoc, List.getElem?_append_right h9.le, h9]
      rfl
  · rintro ⟨hhead, hblank⟩ m
    refine ⟨fun hm => ?_, fun htoken => htoken.getMethod_eq (by omega)⟩
    obtain ⟨htake, hupper⟩ := (getMethod_eq_some_iff (by omega)).mp hm
    refine isMethodToken_of_getMethod hm hlen ?_ fun h9 => hblank ?_
    · rintro rfl
      cases data with
      | nil => simp at hlen
      | cons c data =>
        refine hhead (congrArg some ?_)
        by_contra hc
        rw [List.take_succ_cons, List.takeWhile_cons_of_pos (by simpa using hc)] at htake
        simp at htake
    · -- nothing is left of the nine bytes
      have hprefix : (data.take 9).takeWhile (· ≠ 32) <+: data.take 9 := List.takeWhile_prefix _
      rw [htake] at hprefix
      rwa [← hprefix.eq_of_length (by rw [h9, List.length_take]; omega)]

theorem get_method_invite : ReportsMethod (ascii "INVITE sip:b@h SIP/2.0") (fun _ => 0) :=
  (get_method_iff (by decide) _).mpr ⟨by decide, by decide⟩

/-- Of `SUBSCRIBER` the method `SUBSCRIBE` is reported. -/
theorem get_method_false :
    ¬∀ (data : Bytes) (sipMethod : Buf 10), 10 ≤ data.length → ReportsMethod data sipMethod := by
  intro h
  have hmethod := (h (ascii "SUBSCRIBER sip:b@h") (fun _ => 0) (by decide)).1 (ascii "SUBSCRIBE")
  exact absurd (hmethod.mp ⟨by decide, by decide⟩).starts (by decide)

end PcapSipDump
