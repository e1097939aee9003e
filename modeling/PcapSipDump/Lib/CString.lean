import Mathlib.Algebra.BigOperators.Group.List.Basic
import Mathlib.Algebra.Order.Ring.Int
import Mathlib.Data.Fintype.Basic
import Mathlib.Data.List.TakeWhile
import Mathlib.Order.Bounds.Basic

/-!
# Byte strings as the C library sees them

A byte string is a list of bytes; what lies behind it in memory reads as a terminator, so the
end of the list counts as a NUL.  A character array of fixed size is a function from its
indices (`Buf`), so every index is inside the array and writes behind its end are lost.
-/

namespace Lib.CString

/-- A byte string. -/
abbrev Bytes := List UInt8

/-- A character array of `n` bytes. -/
abbrev Buf (n : ℕ) := Fin n → UInt8

/-- The bytes of a string literal. -/
def ascii (s : String) : Bytes := s.toList.map fun c => UInt8.ofNat c.toNat

/-- The C string at the start of `s`: everything before the first NUL. -/
def cstr (s : Bytes) : Bytes := s.takeWhile (· ≠ 0)

/-- A C string in memory, without its terminator.  No object is larger than half of the address
space. -/
structure CStr where
  bytes : Bytes
  nul_free : ∀ c ∈ bytes, c ≠ 0
  length_lt : bytes.length < 2 ^ 63

/-- The array as a byte string. -/
def Buf.toBytes {n : ℕ} (b : Buf n) : Bytes := List.ofFn b

/-- `memcpy(dst, src, k)`. -/
def memcpy {n : ℕ} (dst : Buf n) (src : Bytes) (k : ℕ) : Buf n :=
  fun i => if i < k then src.getD i 0 else dst i

/-- `memcpy(dst, s, |s|)` followed by a terminator, which is also `strcpy(dst, s)`. -/
def copyTerminated {n : ℕ} (dst : Buf n) (s : Bytes) : Buf n :=
  memcpy dst (s ++ [0]) (s.length + 1)

/-- `strlcpy(dst, src, sizeof(dst))`: with libbsd the copy is cut to leave room for a
terminator; otherwise `strlcpy` is `strncpy`, which fills the array up with zeros and leaves a
long copy without a terminator. -/
def strlcpy (libbsd : Bool) {n : ℕ} (dst : Buf n) (src : Bytes) : Buf n :=
  if libbsd then copyTerminated dst (src.take (n - 1)) else memcpy dst src n

lemma cstr_eq_self {s : Bytes} (hs : ∀ c ∈ s, c ≠ 0) : cstr s = s := by
  refine List.takeWhile_eq_self_iff.mpr fun c hc => ?_
  exact decide_eq_true (hs c hc)

lemma cstr_cons (c : UInt8) (s : Bytes) : cstr (c :: s) = if c = 0 then [] else c :: cstr s := by
  rw [cstr, List.takeWhile_cons]
  by_cases hc : c = 0 <;> simp [hc, cstr]

/-- A string is followed by a NUL or by nothing. -/
lemma cstr_cases (s : Bytes) : cstr s = s ∨ ∃ rest, s = cstr s ++ 0 :: rest := by
  induction s with
  | nil => exact Or.inl rfl
  | cons c s ih =>
    rw [cstr_cons]
    by_cases hc : c = 0
    · rw [if_pos hc, hc]
      exact Or.inr ⟨s, rfl⟩
    · rw [if_neg hc]
      rcases ih with ih | ⟨rest, ih⟩
      · exact Or.inl (congrArg (c :: ·) ih)
      · exact Or.inr ⟨rest, congrArg (c :: ·) ih⟩

/-- The string in the first `n` bytes. -/
lemma cstr_take (n : ℕ) (s : Bytes) : cstr (s.take n) = (cstr s).take n := by
  induction s generalizing n with
  | nil => rw [List.take_nil, cstr, List.takeWhile_nil, List.take_nil]
  | cons c s ih =>
    cases n with
    | zero => rfl
    | succ n =>
      rw [List.take_succ_cons, cstr_cons, cstr_cons, ih]
      split
      · rfl
      · rw [List.take_succ_cons]

/-- A string as long as what it is read from. -/
lemma cstr_eq_iff {s t : Bytes} (hlen : s.length = t.length) (ht : ∀ c ∈ t, c ≠ 0) :
    cstr s = t ↔ s = t := by
  constructor
  · intro h
    rw [← h]
    exact (List.IsPrefix.eq_of_length (List.takeWhile_prefix _) (by rw [← cstr, h, hlen])).symm
  · rintro rfl
    exact cstr_eq_self ht

lemma ne_zero_of_mem_cstr {s : Bytes} {c : UInt8} (h : c ∈ cstr s) : c ≠ 0 := by
  rw [cstr] at h
  simpa using List.mem_takeWhile_imp h

@[simp] lemma Buf.length_toBytes {n : ℕ} (b : Buf n) : b.toBytes.length = n := by
  simp [Buf.toBytes]

/-- The bytes that `memcpy` has written are those of the source. -/
lemma take_toBytes_memcpy {n : ℕ} (dst : Buf n) {src : Bytes} {k : ℕ} (hn : k ≤ n)
    (hk : k ≤ src.length) : (memcpy dst src k).toBytes.take k = src.take k := by
  apply List.ext_getElem
  · simp [hn, hk]
  · intro i hi hi'
    have hik : i < k := by simpa [hn] using hi
    have his : i < src.length := hik.trans_le hk
    simp [Buf.toBytes, memcpy, hik, his]

/-- A string and its terminator in front of anything. -/
lemma cstr_append_nul {s : Bytes} (hs : ∀ c ∈ s, c ≠ 0) (t : Bytes) : cstr (s ++ 0 :: t) = s := by
  have hpos : ∀ c ∈ s, decide (c ≠ 0) = true := fun c hc => decide_eq_true (hs c hc)
  rw [cstr, List.takeWhile_append_of_pos hpos]
  simp

lemma take_copyTerminated {n : ℕ} (dst : Buf n) {s : Bytes} (h : s.length < n) :
    (copyTerminated dst s).toBytes.take (s.length + 1) = s ++ [0] := by
  rw [copyTerminated, take_toBytes_memcpy dst h (by simp)]
  exact List.take_of_length_le (by simp)

/-- A string is read back from an array that has room for it. -/
lemma cstr_copyTerminated {n : ℕ} (dst : Buf n) {s : Bytes} (hs : ∀ c ∈ s, c ≠ 0)
    (hn : s.length < n) (behind : Bytes) : cstr ((copyTerminated dst s).toBytes ++ behind) = s := by
  rw [← List.take_append_drop (s.length + 1) (copyTerminated dst s).toBytes,
    take_copyTerminated dst hn,
    List.append_assoc, List.append_assoc]
  exact cstr_append_nul hs _

lemma takeWhile_append_cons {f : UInt8 → Bool} (x y : Bytes) {d : UInt8} (hd : f d = false) :
    (x ++ d :: y).takeWhile f = x.takeWhile f := by
  induction x with
  | nil => simp [hd]
  | cons a x ih =>
    rw [List.cons_append, List.takeWhile_cons, List.takeWhile_cons, ih]

/-- The string at the start of an array that has been filled: a string that is shorter than the
array, or the part of a longer one that fits, which goes on with what lies behind the array. -/
lemma cstr_memcpy {n : ℕ} (dst : Buf n) (s behind : Bytes) :
    cstr ((memcpy dst s n).toBytes ++ behind) =
      if (cstr s).length < n then cstr s else (cstr s).take n ++ cstr behind := by
  have hpad : memcpy dst s n = memcpy dst (s ++ List.replicate n 0) n := by
    funext i
    simp only [memcpy, i.isLt, if_true, List.getD_eq_getElem?_getD]
    by_cases hi : i < s.length
    · rw [List.getElem?_append_left hi]
    · rw [List.getElem?_append_right (not_lt.mp hi), List.getElem?_eq_none (not_lt.mp hi),
        List.getElem?_replicate]
      split <;> rfl
  have hbytes : (memcpy dst s n).toBytes = (s ++ List.replicate n 0).take n := by
    rw [hpad, ← take_toBytes_memcpy dst (le_refl n) (by simp), List.take_of_length_le (by simp)]
  have hstop : cstr (s ++ List.replicate n 0) = cstr s := by
    cases n with
    | zero => rw [List.replicate_zero, List.append_nil]
    | succ n => exact takeWhile_append_cons s _ (by decide)
  have hcstr : cstr (memcpy dst s n).toBytes = (cstr s).take n := by
    rw [hbytes, cstr_take, hstop]
  rw [cstr, List.takeWhile_append, ← cstr, hcstr, List.length_take, Buf.length_toBytes]
  by_cases hn : (cstr s).length < n
  · rw [if_neg (by omega), if_pos hn, List.take_of_length_le hn.le]
  · have hfull : cstr (memcpy dst s n).toBytes = (memcpy dst s n).toBytes := by
      refine List.IsPrefix.eq_of_length (List.takeWhile_prefix _) ?_
      rw [hcstr, List.length_take, Buf.length_toBytes]
      omega
    rw [if_pos (by omega), if_neg hn, ← hcstr, hfull, cstr]

/-- The string that `strlcpy` stores is read back when it is shorter than the array.  Without
libbsd it is not terminated otherwise, and goes on with what lies behind. -/
lemma cstr_strlcpy_eq_iff {n : ℕ} (libbsd : Bool) (dst : Buf n) (hn : 0 < n) {fn : Bytes}
    (hfn : ∀ c ∈ fn, c ≠ 0) (behind : Bytes) :
    cstr ((strlcpy libbsd dst fn).toBytes ++ behind) = fn ↔
      fn.length < n ∨ libbsd = false ∧ n ≤ fn.length ∧ cstr behind = fn.drop n := by
  cases libbsd with
  | true =>
    have hcopy : cstr ((strlcpy true dst fn).toBytes ++ behind) = fn.take (n - 1) :=
      cstr_copyTerminated dst (fun c hc => hfn c (List.mem_of_mem_take hc))
        (by rw [List.length_take]; omega) behind
    rw [hcopy, List.take_eq_self_iff]
    simp only [Bool.true_eq_false, false_and, or_false]
    omega
  | false =>
    rw [show strlcpy false dst fn = memcpy dst fn n from rfl, cstr_memcpy, cstr_eq_self hfn]
    by_cases hlen : fn.length < n
    · exact iff_of_true (if_pos hlen) (Or.inl hlen)
    · have hsplit : fn.take n ++ cstr behind = fn ↔ cstr behind = fn.drop n := by
        conv_lhs => rhs; rw [← List.take_append_drop n fn]
        exact List.append_right_inj _
      rw [if_neg hlen, hsplit]
      simp [hlen, not_lt.mp hlen]

/-- The bytes of a word that stands at position `i`. -/
lemma getD_mem_of_isPre {buf x : Bytes} {i j : ℕ} (h : x <+: buf.drop i) (hi : i ≤ j)
    (hj : j < i + x.length) : buf.getD j 0 ∈ x := by
  obtain ⟨y, hy⟩ := h
  have hlt : j - i < x.length := by omega
  have hget : buf.getD j 0 = x[j - i] := by
    have hdrop : (buf.drop i)[j - i]? = some x[j - i] := by
      rw [← hy, List.getElem?_append_left hlt, List.getElem?_eq_getElem hlt]
    rw [List.getElem?_drop, Nat.add_sub_cancel' hi] at hdrop
    rw [List.getD_eq_getElem?_getD, hdrop, Option.getD_some]
  rw [hget]
  exact List.getElem_mem hlt

lemma drop_takeWhile (f : UInt8 → Bool) (buf : Bytes) :
    buf.drop (buf.takeWhile f).length = buf.dropWhile f :=
  (congrArg (List.drop _) List.takeWhile_append_dropWhile.symm).trans List.drop_left

/-- Where `takeWhile` stops. -/
lemma takeWhile_stop (f : UInt8 → Bool) (buf : Bytes) (i : ℕ) :
    (∀ j, i ≤ j → j < i + ((buf.drop i).takeWhile f).length → f (buf.getD j 0) = true) ∧
      (i + ((buf.drop i).takeWhile f).length < buf.length →
        f (buf.getD (i + ((buf.drop i).takeWhile f).length) 0) = false) := by
  refine ⟨fun j hi hj => ?_, fun hlt => ?_⟩
  · exact List.mem_takeWhile_imp (getD_mem_of_isPre (List.takeWhile_prefix f) hi hj)
  · have hsplit := drop_takeWhile f (buf.drop i)
    rw [List.drop_drop] at hsplit
    have hlen : 0 < ((buf.drop i).dropWhile f).length := by
      rw [← hsplit, List.length_drop]
      omega
    have hstop := List.dropWhile_get_zero_not f (buf.drop i) hlen
    have hget : buf.getD (i + ((buf.drop i).takeWhile f).length) 0 =
        ((buf.drop i).dropWhile f).get ⟨0, hlen⟩ := by
      simp only [List.getD_eq_getElem?_getD, List.getElem?_eq_getElem hlt, Option.getD_some,
        List.get_eq_getElem, ← hsplit, List.getElem_drop, Nat.add_zero]
    rw [hget]
    simpa using hstop

/-- A NUL ends a string. -/
lemma length_cstr_le {s : Bytes} {k : ℕ} (h : s.getD k 0 = 0) : (cstr s).length ≤ k := by
  by_contra hlt
  have hbyte := (takeWhile_stop (fun c => decide (c ≠ 0)) s 0).1 k (Nat.zero_le k) (by
    rw [List.drop_zero, Nat.zero_add]
    exact not_le.mp hlt)
  exact of_decide_eq_true hbyte h

/-- A copy is not longer than the string. -/
lemma length_cstr_strlcpy_le {n : ℕ} (libbsd : Bool) (dst : Buf n) (s : Bytes) :
    (cstr (strlcpy libbsd dst s).toBytes).length ≤ s.length := by
  by_cases hn : s.length < n
  · have hget : (strlcpy libbsd dst s).toBytes.getD s.length 0 = 0 := by
      have hentry : (strlcpy libbsd dst s).toBytes.getD s.length 0 =
          strlcpy libbsd dst s ⟨s.length, hn⟩ := by
        simp [Buf.toBytes, hn]
      rw [hentry]
      cases libbsd with
      | true =>
        have htake : s.take (n - 1) = s := List.take_of_length_le (by omega)
        simp [strlcpy, copyTerminated, memcpy, htake]
      | false => simp [strlcpy, memcpy, hn]
    exact length_cstr_le hget
  · calc (cstr (strlcpy libbsd dst s).toBytes).length
        ≤ (strlcpy libbsd dst s).toBytes.length := (List.takeWhile_prefix _).length_le
      _ = n := Buf.length_toBytes _
      _ ≤ s.length := not_lt.mp hn

/-- The array has a terminator. -/
lemma zero_mem_strlcpy_iff {n : ℕ} (libbsd : Bool) (dst : Buf n) (hn : 0 < n) {s : Bytes}
    (hs : ∀ c ∈ s, c ≠ 0) :
    0 ∈ (strlcpy libbsd dst s).toBytes ↔ libbsd = true ∨ s.length < n := by
  rw [Buf.toBytes, List.mem_ofFn]
  cases libbsd with
  | true =>
    have hlt : (s.take (n - 1)).length < n := by
      rw [List.length_take]
      omega
    have hzero : copyTerminated dst (s.take (n - 1)) ⟨_, hlt⟩ = 0 := by
      rw [copyTerminated, memcpy, if_pos (Nat.lt_succ_self _)]
      simp [-List.length_take]
    exact iff_of_true ⟨⟨_, hlt⟩, hzero⟩ (Or.inl rfl)
  | false =>
    constructor
    · rintro ⟨i, hi⟩
      refine Or.inr (not_le.mp fun hle => ?_)
      have hlt : i < s.length := i.isLt.trans_le hle
      have hentry : strlcpy false dst s i = s[i] := by
        simp [strlcpy, memcpy, List.getD_eq_getElem?_getD, hlt]
      exact hs _ (List.getElem_mem hlt) (hentry.symm.trans hi)
    · rintro (h | h)
      · exact absurd h Bool.false_ne_true
      · exact ⟨⟨s.length, h⟩, by simp [strlcpy, memcpy, h]⟩

/-- A string determines its parts before and behind the first separator. -/
lemma append_cons_inj {c : UInt8} {a a' b b' : Bytes} (ha : c ∉ a) (ha' : c ∉ a')
    (h : a ++ c :: b = a' ++ c :: b') : a = a' ∧ b = b' := by
  have hbefore : ∀ {x : Bytes} (y : Bytes), c ∉ x → (x ++ c :: y).takeWhile (· ≠ c) = x := by
    intro x y hx
    have hne : ∀ d ∈ x, decide (d ≠ c) = true :=
      fun d hd => decide_eq_true fun heq => hx (heq ▸ hd)
    rw [List.takeWhile_append_of_pos hne]
    simp
  have heq : a = a' := by rw [← hbefore b ha, h, hbefore b' ha']
  rw [heq] at h
  exact ⟨heq, (List.cons.inj (List.append_cancel_left h)).2⟩

/-- `memmem`: the position of the first occurrence of `needle`. -/
def memmem : Bytes → Bytes → Option ℕ
  | [], needle => if needle.isEmpty then some 0 else none
  | c :: hay, needle =>
      if needle.isPrefixOf (c :: hay) then some 0 else (memmem hay needle).map (· + 1)

lemma memmem_eq_some {hay needle : Bytes} {k : ℕ} (h : memmem hay needle = some k) :
    needle <+: hay.drop k ∧ ∀ j < k, ¬needle <+: hay.drop j := by
  induction hay generalizing k with
  | nil =>
    cases needle with
    | nil =>
      obtain rfl : 0 = k := Option.some.inj h
      exact ⟨List.nil_prefix, by simp⟩
    | cons c needle => simp [memmem] at h
  | cons c hay ih =>
    unfold memmem at h
    by_cases hpre : needle.isPrefixOf (c :: hay)
    · rw [if_pos hpre] at h
      obtain rfl : 0 = k := Option.some.inj h
      exact ⟨List.isPrefixOf_iff_prefix.mp hpre, by simp⟩
    · rw [if_neg hpre] at h
      obtain ⟨l, hl, rfl⟩ := Option.map_eq_some_iff.mp h
      obtain ⟨hat, hbefore⟩ := ih hl
      refine ⟨hat, fun j hj => ?_⟩
      cases j with
      | zero => exact fun hp => hpre (List.isPrefixOf_iff_prefix.mpr hp)
      | succ j => exact hbefore j (by omega)

lemma memmem_eq_none {hay needle : Bytes} (h : memmem hay needle = none) (j : ℕ) :
    ¬needle <+: hay.drop j := by
  induction hay generalizing j with
  | nil =>
    cases needle with
    | nil => simp [memmem] at h
    | cons c needle => simp
  | cons c hay ih =>
    unfold memmem at h
    by_cases hpre : needle.isPrefixOf (c :: hay)
    · simp [hpre] at h
    · rw [if_neg hpre, Option.map_eq_none_iff] at h
      cases j with
      | zero => exact fun hp => hpre (List.isPrefixOf_iff_prefix.mpr hp)
      | succ j => exact ih h j

lemma memmem_eq_some_iff {hay needle : Bytes} {k : ℕ} :
    memmem hay needle = some k ↔ IsLeast {i | needle <+: hay.drop i} k := by
  have hleast : ∀ {k}, memmem hay needle = some k → IsLeast {i | needle <+: hay.drop i} k := by
    intro k h
    obtain ⟨hat, hbefore⟩ := memmem_eq_some h
    exact ⟨hat, fun i hi => not_lt.mp fun hlt => hbefore i hlt hi⟩
  refine ⟨hleast, fun h => ?_⟩
  rcases hm : memmem hay needle with _ | k'
  · exact absurd h.1 (memmem_eq_none hm k)
  · rw [(hleast hm).unique h]

lemma memmem_eq_none_iff {hay needle : Bytes} :
    memmem hay needle = none ↔ ∀ i, ¬needle <+: hay.drop i := by
  refine ⟨memmem_eq_none, fun h => ?_⟩
  rcases hm : memmem hay needle with _ | k
  · rfl
  · exact absurd (memmem_eq_some hm).1 (h k)

/-- `strstr`: `memmem` in the C string at the start of `hay`. -/
def strstr (hay needle : Bytes) : Option ℕ := memmem (cstr hay) needle

/-- A word is found exactly if it does not stand behind a NUL. -/
lemma strstr_of_isLeast {hay needle : Bytes} {k : ℕ} (hneedle : ∀ c ∈ needle, c ≠ 0)
    (h : IsLeast {i | needle <+: hay.drop i} k) :
    strstr hay needle = if 0 ∈ hay.take k then none else some k := by
  have hpre : cstr hay <+: hay := List.takeWhile_prefix _
  have hle : ∀ i, needle <+: (cstr hay).drop i → k ≤ i :=
    fun i hi => h.2 (hi.trans (hpre.drop i))
  rw [strstr]
  split
  · rename_i hnul
    have hshort : (cstr hay).length < k := by
      by_contra hlt
      have htake : hay.take k = (cstr hay).take k := by
        obtain ⟨rest, hrest⟩ := hpre
        conv_lhs => rw [← hrest, List.take_append_of_le_length (not_lt.mp hlt)]
      rw [htake] at hnul
      exact ne_zero_of_mem_cstr (List.mem_of_mem_take hnul) rfl
    refine memmem_eq_none_iff.mpr fun i hi => ?_
    rw [List.drop_of_length_le (hshort.le.trans (hle i hi))] at hi
    obtain rfl := List.prefix_nil.mp hi
    exact absurd (hle 0 List.nil_prefix) (by omega)
  · rename_i hnul
    refine memmem_eq_some_iff.mpr ⟨?_, fun i hi => hle i hi⟩
    obtain ⟨rest, hrest⟩ := h.1
    have hpos : ∀ c ∈ hay.take k ++ needle, decide (c ≠ 0) = true := by
      intro c hc
      refine decide_eq_true ?_
      rcases List.mem_append.mp hc with hc | hc
      · rintro rfl
        exact hnul hc
      · exact hneedle c hc
    have hsplit : cstr hay = hay.take k ++ (needle ++ cstr rest) := by
      conv_lhs => rw [← List.take_append_drop k hay, ← hrest, ← List.append_assoc]
      rw [cstr, List.takeWhile_append_of_pos hpos, List.append_assoc, cstr]
    have hk : (hay.take k).length = k ∨ needle = [] := by
      by_cases hlen : k ≤ hay.length
      · exact Or.inl (List.length_take_of_le hlen)
      · right
        rw [List.drop_of_length_le (not_le.mp hlen).le] at hrest
        exact (List.append_eq_nil_iff.mp hrest).1
    show needle <+: (cstr hay).drop k
    rcases hk with hk | rfl
    · rw [hsplit, List.drop_left' hk]
      exact List.prefix_append _ _
    · exact List.nil_prefix

/-- `strchr`: the index of the first `c` in the C string at the start of `s`. -/
def strchr (s : Bytes) (c : UInt8) : Option ℕ := (cstr s).findIdx? (· = c)

/-- `strrchr` in a C string without its terminator: the index of the last `c`. -/
def strrchr (c : UInt8) : Bytes → Option ℕ
  | [] => none
  | d :: s =>
      match strrchr c s with
      | some k => some (k + 1)
      | none => if d = c then some 0 else none

/-- A character that is found first stands in front of the terminator. -/
lemma strchr_append {t : Bytes} {c : UInt8} (ht : ∀ d ∈ t, d ≠ 0) (hc : c ≠ 0) (hct : c ∉ t)
    (rest : Bytes) : strchr (t ++ c :: rest) c = some t.length := by
  have hpos : ∀ d ∈ t, decide (d ≠ 0) = true := fun d hd => decide_eq_true (ht d hd)
  have hnone : t.findIdx? (· = c) = none := by
    refine List.findIdx?_eq_none_iff.mpr fun d hd => decide_eq_false ?_
    rintro rfl
    exact hct hd
  rw [strchr, cstr, List.takeWhile_append_of_pos hpos, List.findIdx?_append, hnone]
  simp [hc, List.findIdx?_cons]

/-- A character behind the terminator is not found. -/
lemma strchr_eq_none {t : Bytes} {c : UInt8} (hct : c ∉ t) (rest : Bytes) :
    strchr (t ++ 0 :: rest) c = none := by
  refine List.findIdx?_eq_none_iff.mpr fun d hd => decide_eq_false ?_
  rintro rfl
  have hstop : cstr (t ++ 0 :: rest) = cstr t := takeWhile_append_cons t rest (by simp)
  rw [hstop] at hd
  exact hct ((List.takeWhile_prefix _).subset hd)

lemma lt_length_of_strrchr {c : UInt8} {s : Bytes} {k : ℕ} (h : strrchr c s = some k) :
    k < s.length := by
  induction s generalizing k with
  | nil => simp [strrchr] at h
  | cons d s ih =>
    rw [strrchr] at h
    rw [List.length_cons]
    rcases hs : strrchr c s with _ | l
    · rw [hs] at h
      split_ifs at h
      obtain rfl := Option.some.inj h
      exact Nat.succ_pos _
    · rw [hs] at h
      obtain rfl := Option.some.inj h
      exact Nat.succ_lt_succ (ih hs)

lemma strrchr_eq_none {c : UInt8} {s : Bytes} (h : c ∉ s) : strrchr c s = none := by
  induction s with
  | nil => rfl
  | cons d s ih =>
    have hd : d ≠ c := fun heq => h (heq ▸ List.mem_cons_self)
    rw [strrchr, ih fun hmem => h (List.mem_cons_of_mem d hmem)]
    exact if_neg hd

/-- The last `c` is the one that has none behind it. -/
lemma strrchr_append {c : UInt8} (a : Bytes) {b : Bytes} (hb : c ∉ b) :
    strrchr c (a ++ c :: b) = some a.length := by
  induction a with
  | nil =>
    rw [List.nil_append, strrchr, strrchr_eq_none hb]
    exact if_pos rfl
  | cons d a ih =>
    rw [List.cons_append, strrchr, ih]
    rfl

/-- `strncmp` after mapping the bytes with `f`: whether the first `n` characters agree, a
terminator ending the comparison. -/
def eqUpTo (f : UInt8 → UInt8) : ℕ → Bytes → Bytes → Bool
  | 0, _, _ => true
  | n + 1, a, b =>
      if f (a.headD 0) ≠ f (b.headD 0) then false
      else if a.headD 0 = 0 then true
      else eqUpTo f n a.tail b.tail

/-- `strncmp(a, b, n) == 0`. -/
def strncmpEq (n : ℕ) (a b : Bytes) : Bool := eqUpTo id n a b

/-- The strings agree in their first `n` characters. -/
lemma strncmpEq_iff (n : ℕ) (a b : Bytes) :
    strncmpEq n a b ↔ (cstr a).take n = (cstr b).take n := by
  rw [strncmpEq]
  induction n generalizing a b with
  | zero => simp [eqUpTo]
  | succ n ih =>
    have hcstr : ∀ s : Bytes, (cstr s).take (n + 1) =
        if s.headD 0 = 0 then [] else s.headD 0 :: (cstr s.tail).take n := by
      intro s
      cases s with
      | nil => rfl
      | cons c s =>
        rw [cstr_cons, List.headD_cons, List.tail_cons]
        split
        · rfl
        · rw [List.take_succ_cons]
    rw [hcstr, hcstr, eqUpTo, id_eq, id_eq]
    by_cases hab : a.headD 0 = b.headD 0
    · rw [if_neg (not_not.mpr hab), ← hab]
      by_cases ha : a.headD 0 = 0
      · rw [if_pos ha, if_pos ha, if_pos ha]
        exact iff_of_true rfl rfl
      · rw [if_neg ha, if_neg ha, if_neg ha, ih, List.cons_inj_right]
    · rw [if_pos hab]
      refine iff_of_false Bool.false_ne_true fun h => ?_
      split_ifs at h with ha hb hb
      · exact hab (ha.trans hb.symm)
      · exact hab (List.cons.inj h).1

/-- A string without NUL agrees with what it is compared with in its whole length exactly if it is a
prefix of it. -/
lemma strncmpEq_iff_prefix {a : Bytes} (ha : ∀ c ∈ a, c ≠ 0) (b : Bytes) :
    strncmpEq a.length a b ↔ a <+: b := by
  rw [strncmpEq_iff, cstr_eq_self ha, List.take_length]
  constructor
  · intro h
    rw [h]
    exact (List.take_prefix _ _).trans (List.takeWhile_prefix _)
  · rintro ⟨rest, rfl⟩
    have hpos : ∀ c ∈ a, decide (c ≠ 0) = true := fun c hc => decide_eq_true (ha c hc)
    rw [cstr, List.takeWhile_append_of_pos hpos, List.take_left]

/-- `tolower` in the C locale. -/
def tolower (c : UInt8) : UInt8 := if 65 ≤ c ∧ c ≤ 90 then c + 32 else c

/-- `strncasecmp(a, b, n) == 0`. -/
def strncasecmpEq (n : ℕ) (a b : Bytes) : Bool := eqUpTo tolower n a b

/-- `strcasecmp(a, b) == 0`. -/
def strcasecmpEq (a b : Bytes) : Bool := (cstr a).map tolower = (cstr b).map tolower

@[simp] lemma tolower_eq_zero_iff {c : UInt8} : tolower c = 0 ↔ c = 0 := by
  rw [tolower]
  split
  · rename_i h
    simp only [UInt8.le_iff_toNat_le, UInt8.reduceToNat] at h
    refine iff_of_false (fun hc => ?_) (fun hc => ?_)
    · have hsum := congrArg UInt8.toNat hc
      rw [UInt8.toNat_add] at hsum
      simp only [UInt8.reduceToNat] at hsum
      omega
    · rw [hc] at h
      exact absurd h.1 (by decide)
  · rfl

/-- What is in front of the letters is the same in lower case. -/
lemma tolower_eq_iff {c d : UInt8} (hd : d ≤ 64) : tolower c = d ↔ c = d := by
  rw [tolower]
  split
  · rename_i h
    simp only [UInt8.le_iff_toNat_le, UInt8.reduceToNat, ← UInt8.toNat_inj, UInt8.toNat_add]
      at h hd ⊢
    omega
  · rfl

/-- `strncasecmp` compares the strings in lower case. -/
lemma strncasecmpEq_eq (n : ℕ) (a b : Bytes) :
    strncasecmpEq n a b = strncmpEq n (a.map tolower) (b.map tolower) := by
  rw [strncasecmpEq, strncmpEq]
  induction n generalizing a b with
  | zero => rfl
  | succ n ih =>
    have hhead : ∀ s : Bytes, (s.map tolower).headD 0 = tolower (s.headD 0) := by
      intro s
      cases s <;> rfl
    rw [eqUpTo, eqUpTo, hhead, hhead, ih, List.map_tail, List.map_tail]
    simp only [id_eq, tolower_eq_zero_iff]

/-- A letter in lower case has no other lower case. -/
lemma tolower_tolower (c : UInt8) : tolower (tolower c) = tolower c := by
  rw [tolower]
  refine if_neg fun h => ?_
  rw [tolower] at h
  split at h
  · rename_i hc
    simp only [UInt8.le_iff_toNat_le, UInt8.reduceToNat, UInt8.toNat_add] at h hc
    omega
  · rename_i hc
    exact hc h

/-- `strcasecmp` compares the strings in lower case. -/
lemma strcasecmpEq_map_tolower (a b : Bytes) :
    strcasecmpEq a (b.map tolower) = strcasecmpEq a b := by
  have hnul : (fun c : UInt8 => decide (c ≠ 0)) ∘ tolower = fun c => decide (c ≠ 0) := by
    funext c
    exact decide_eq_decide.mpr (not_congr tolower_eq_zero_iff)
  have hlower : tolower ∘ tolower = tolower := funext tolower_tolower
  rw [strcasecmpEq, strcasecmpEq, cstr, cstr, List.takeWhile_map, hnul, List.map_map, hlower, cstr]
/-- `isupper` in the C locale. -/
def isupper (c : UInt8) : Bool := 65 ≤ c && c ≤ 90

/-- `isdigit`. -/
def isdigit (c : UInt8) : Bool := 48 ≤ c && c ≤ 57

/-- `isspace` in the C locale. -/
def isspace (c : UInt8) : Bool := c = 32 || (9 ≤ c && c ≤ 13)

/-- The value of the decimal digits at the start of `s`. -/
def leadingDigits (s : Bytes) : ℕ :=
  (s.takeWhile isdigit).foldl (fun v c => 10 * v + (c.toNat - 48)) 0

/-- `atol`: blanks, a sign and digits, saturating at the ends of a 64-bit `long`. -/
def atol (s : Bytes) : ℤ :=
  match s.dropWhile isspace with
  | 45 :: t => max (-(leadingDigits t : ℤ)) (-2 ^ 63)
  | 43 :: t => min (leadingDigits t : ℤ) (2 ^ 63 - 1)
  | t => min (leadingDigits t : ℤ) (2 ^ 63 - 1)

/-- `atoi`: the low 32 bits of `atol`, read as an `int`. -/
def atoi (s : Bytes) : ℤ := (atol s).bmod (2 ^ 32)

/-! ### Occurrences in a text made of parts -/

section Occurrence

variable {a t rest : Bytes} {c d : UInt8} {i : ℕ}

/-- An occurrence that starts in `a` is in `a`, if what follows `a` starts with a byte that the
word has at most in front. -/
lemma infix_of_occurrence (hd : d ∉ rest) (hi : i < a.length)
    (h : c :: rest <+: (a ++ d :: t).drop i) : c :: rest <:+: a := by
  rw [List.drop_append_of_le_length hi.le] at h
  rcases List.prefix_or_prefix_of_prefix h (List.prefix_append (a.drop i) (d :: t)) with
    hin | ⟨y, hy⟩
  · exact hin.isInfix.trans (List.drop_suffix i a).isInfix
  · cases y with
    | nil =>
      rw [List.append_nil] at hy
      exact hy ▸ (List.drop_suffix i a).isInfix
    | cons e y =>
      -- the word would go on behind `a`
      rw [← hy] at h
      obtain ⟨rfl, -⟩ := List.cons_prefix_cons.mp ((List.prefix_append_right_inj _).mp h)
      rcases hx : a.drop i with _ | ⟨x, xs⟩
      · have hlength := congrArg List.length hx
        rw [List.length_drop, List.length_nil] at hlength
        omega
      · rw [hx, List.cons_append] at hy
        obtain ⟨-, rfl⟩ := List.cons.inj hy
        exact absurd (List.mem_append_right xs List.mem_cons_self) hd

/-- A word behind a part without it occurs there for the first time. -/
lemma isLeast_occurrence (hd : d ∉ rest) (ha : ¬d :: rest <:+: a) (t : Bytes) :
    IsLeast {i | d :: rest <+: (a ++ (d :: rest ++ t)).drop i} a.length := by
  constructor
  · show d :: rest <+: (a ++ (d :: rest ++ t)).drop a.length
    rw [List.drop_left]
    exact List.prefix_append _ _
  · intro i hi
    by_contra hlt
    exact ha (infix_of_occurrence hd (not_le.mp hlt) hi)

end Occurrence

/-! ### Numbers that start with a digit -/

section Digits

variable {s : Bytes}

lemma isspace_of_isdigit {c : UInt8} (h : isdigit c) : isspace c = false := by
  simp only [isdigit, isspace, Bool.and_eq_true, decide_eq_true_eq, Bool.or_eq_false_iff,
    Bool.and_eq_false_iff, decide_eq_false_iff_not, UInt8.le_iff_toNat_le, ← UInt8.toNat_inj]
    at h ⊢
  simp only [UInt8.reduceToNat] at h ⊢
  omega

/-- `isspace` and `isdigit` do not depend on the case. -/
lemma isspace_tolower (c : UInt8) : isspace (tolower c) = isspace c := by
  rw [tolower]
  split
  · rename_i h
    rw [Bool.eq_iff_iff]
    simp only [isspace, Bool.and_eq_true, Bool.or_eq_true, decide_eq_true_eq, UInt8.le_iff_toNat_le,
      UInt8.reduceToNat, ← UInt8.toNat_inj, UInt8.toNat_add] at h ⊢
    omega
  · rfl

lemma isdigit_tolower (c : UInt8) : isdigit (tolower c) = isdigit c := by
  rw [tolower]
  split
  · rename_i h
    rw [Bool.eq_iff_iff]
    simp only [isdigit, Bool.and_eq_true, decide_eq_true_eq, UInt8.le_iff_toNat_le,
      UInt8.reduceToNat, UInt8.toNat_add] at h ⊢
    omega
  · rfl

lemma ne_blank_of_isdigit {c : UInt8} (h : isdigit c) : c ≠ 32 := by
  rintro rfl
  exact absurd h (by decide)

/-- Where the digits of a number end. -/
lemma takeWhile_isdigit {digits t : Bytes} (hdigits : ∀ c ∈ digits, isdigit c)
    (ht : isdigit (t.headD 0) = false) : (digits ++ t).takeWhile isdigit = digits := by
  have hstop : t.takeWhile isdigit = [] := by
    cases t with
    | nil => rfl
    | cons x t => exact List.takeWhile_cons_of_neg (by simpa using ht)
  rw [List.takeWhile_append_of_pos hdigits, hstop, List.append_nil]

lemma dropWhile_isdigit {digits t : Bytes} (hdigits : ∀ c ∈ digits, isdigit c)
    (ht : isdigit (t.headD 0) = false) : (digits ++ t).dropWhile isdigit = t := by
  have hsplit := List.takeWhile_append_dropWhile (p := isdigit) (l := digits ++ t)
  rw [takeWhile_isdigit hdigits ht] at hsplit
  exact List.append_cancel_left hsplit

/-- A number does not depend on what is behind its digits. -/
lemma leadingDigits_append {digits t : Bytes} (hdigits : ∀ c ∈ digits, isdigit c)
    (ht : isdigit (t.headD 0) = false) : leadingDigits (digits ++ t) = leadingDigits digits := by
  rw [leadingDigits, takeWhile_isdigit hdigits ht, leadingDigits,
    List.takeWhile_eq_self_iff.mpr hdigits]

lemma exists_cons_isdigit {digits : Bytes} (hdigits : ∀ c ∈ digits, isdigit c)
    (hne : digits ≠ []) (t : Bytes) : ∃ d ds, digits ++ t = d :: ds ∧ isdigit d := by
  obtain ⟨d, ds, rfl⟩ := List.exists_cons_of_ne_nil hne
  exact ⟨d, ds ++ t, rfl, hdigits d List.mem_cons_self⟩

lemma isdigit_headD {digits : Bytes} (hdigits : ∀ c ∈ digits, isdigit c) (hne : digits ≠ [])
    (t : Bytes) : isdigit ((digits ++ t).headD 0) := by
  obtain ⟨d, ds, h, hd⟩ := exists_cons_isdigit hdigits hne t
  rw [h]
  exact hd

lemma leadingDigits_takeWhile (t : Bytes) :
    leadingDigits (t.takeWhile isdigit) = leadingDigits t := by
  rw [leadingDigits, List.takeWhile_takeWhile, leadingDigits]
  simp

/-- The number at the start of a line does not depend on what is behind the line. -/
lemma leadingDigits_line {c : UInt8} (hc : isdigit c = false) (s t : Bytes) :
    leadingDigits (s ++ c :: t) = leadingDigits s := by
  rw [leadingDigits, takeWhile_append_cons _ _ hc, leadingDigits]

lemma atol_of_isdigit (h : isdigit (s.headD 0)) :
    atol s = min (leadingDigits s : ℤ) (2 ^ 63 - 1) := by
  cases s with
  | nil => exact absurd h (by decide)
  | cons c s =>
    rw [List.headD_cons] at h
    have hspace : (c :: s).dropWhile isspace = c :: s := by
      rw [List.dropWhile_cons_of_neg]
      rw [isspace_of_isdigit h]
      decide
    have hminus : c ≠ 45 := by
      rintro rfl
      exact absurd h (by decide)
    have hplus : c ≠ 43 := by
      rintro rfl
      exact absurd h (by decide)
    rw [atol, hspace]
    split
    · rename_i heq
      exact absurd (List.cons.inj heq).1 hminus
    · rename_i heq
      exact absurd (List.cons.inj heq).1 hplus
    · rfl

lemma atoi_of_isdigit (h : isdigit (s.headD 0)) (hlt : leadingDigits s < 2 ^ 31) :
    atoi s = leadingDigits s := by
  rw [atoi, atol_of_isdigit h, min_eq_left (by omega), Int.bmod_eq_of_le (by omega) (by omega)]

/-- A number that is not zero has a digit. -/
lemma isdigit_of_leadingDigits_pos (h : 0 < leadingDigits s) : isdigit (s.headD 0) := by
  cases s with
  | nil => exact absurd h (by decide)
  | cons c s =>
    by_contra hc
    rw [List.headD_cons] at hc
    rw [leadingDigits, List.takeWhile_cons_of_neg hc] at h
    exact absurd h (by decide)

/-- `atol` saturates. -/
lemma atol_bounds (s : Bytes) : -2 ^ 63 ≤ atol s ∧ atol s ≤ 2 ^ 63 - 1 := by
  rw [atol]
  split <;> omega

/-- A number is not read beyond a blank with a word behind it. -/
lemma atol_before_word {d : UInt8} (hd : isdigit d = false) (hspace : isspace d = false)
    (hminus : d ≠ 45) (hplus : d ≠ 43) (head rest : Bytes) :
    atol (head ++ 32 :: d :: rest) = atol head := by
  have hblank : isdigit 32 = false := by decide
  have hdrop : (head ++ 32 :: d :: rest).dropWhile isspace =
      if (head.dropWhile isspace).isEmpty then d :: rest
      else head.dropWhile isspace ++ 32 :: d :: rest := by
    have h32 : isspace 32 = true := by decide
    rw [List.dropWhile_append, List.dropWhile_cons_of_pos h32,
      List.dropWhile_cons_of_neg (by rw [hspace]; decide)]
  rw [atol, hdrop, atol]
  rcases head.dropWhile isspace with _ | ⟨x, xs⟩
  · rw [if_pos (by rfl)]
    split
    · rename_i heq
      exact absurd (List.cons.inj heq).1 hminus
    · rename_i heq
      exact absurd (List.cons.inj heq).1 hplus
    · rw [leadingDigits, List.takeWhile_cons_of_neg (by rw [hd]; decide)]
      rfl
  · rw [if_neg (by simp), List.cons_append]
    split
    · rename_i heq
      obtain ⟨rfl, rfl⟩ := List.cons.inj heq
      rw [leadingDigits_line hblank]
      rfl
    · rename_i heq
      obtain ⟨rfl, rfl⟩ := List.cons.inj heq
      rw [leadingDigits_line hblank]
      rfl
    · rename_i hm hp
      rw [← List.cons_append, leadingDigits_line hblank]
      split
      · rename_i heq
        exact (hm _ (by rw [(List.cons.inj heq).1])).elim
      · rename_i heq
        exact (hp _ (by rw [(List.cons.inj heq).1])).elim
      · rfl

/-- The text starts with the number: white space, at most one plus sign, and digits, behind which
there is no further digit. -/
def StartsWithNumber (s : Bytes) (n : ℕ) : Prop :=
  ∃ space plus digits rest, s = space ++ (plus ++ (digits ++ rest)) ∧ (∀ c ∈ space, isspace c) ∧
    (plus = [] ∨ plus = [43]) ∧ (∀ c ∈ digits, isdigit c) ∧ isdigit (rest.headD 0) = false ∧
    leadingDigits digits = n

lemma isdigit_headD_dropWhile (t : Bytes) : isdigit ((t.dropWhile isdigit).headD 0) = false := by
  rcases ht : t.dropWhile isdigit with _ | ⟨c, rest⟩
  · rfl
  · have hne : t.dropWhile isdigit ≠ [] := by simp [ht]
    have hno := List.head_dropWhile_not isdigit hne
    simp only [ht, List.head_cons] at hno
    exact hno

/-- A positive number that `atol` reads is the one that the text starts with. -/
lemma atol_eq_iff_of_pos {n : ℕ} (hpos : 0 < n) (hlt : n < 2 ^ 63 - 1) :
    atol s = n ↔ StartsWithNumber s n := by
  constructor
  · intro h
    rw [atol] at h
    split at h
    · omega
    · rename_i t ht
      refine ⟨s.takeWhile isspace, [43], t.takeWhile isdigit, t.dropWhile isdigit, ?_,
        fun c hc => List.mem_takeWhile_imp hc, Or.inr rfl, fun c hc => List.mem_takeWhile_imp hc,
        isdigit_headD_dropWhile t, ?_⟩
      · rw [List.takeWhile_append_dropWhile, List.singleton_append, ← ht,
          List.takeWhile_append_dropWhile]
      · rw [leadingDigits_takeWhile]
        omega
    · refine ⟨s.takeWhile isspace, [], (s.dropWhile isspace).takeWhile isdigit,
        (s.dropWhile isspace).dropWhile isdigit, ?_, fun c hc => List.mem_takeWhile_imp hc,
        Or.inl rfl, fun c hc => List.mem_takeWhile_imp hc, isdigit_headD_dropWhile _, ?_⟩
      · rw [List.takeWhile_append_dropWhile, List.nil_append, List.takeWhile_append_dropWhile]
      · rw [leadingDigits_takeWhile]
        omega
  · rintro ⟨space, plus, digits, rest, rfl, hspace, hplus, hall, hrest, rfl⟩
    have hne : digits ≠ [] := by
      rintro rfl
      exact absurd hpos (by decide)
    obtain ⟨d, ds, hds, hd⟩ := exists_cons_isdigit hall hne rest
    have hvalue : leadingDigits (d :: ds) = leadingDigits digits := by
      rw [← hds, leadingDigits_append hall hrest]
    rcases hplus with rfl | rfl
    · have hatol := atol_of_isdigit (s := d :: ds) hd
      have hdrop : (space ++ ([] ++ (digits ++ rest))).dropWhile isspace =
          (d :: ds).dropWhile isspace := by
        rw [List.dropWhile_append_of_pos hspace, List.nil_append, hds]
      rw [atol, hdrop, ← atol, hatol, hvalue]
      omega
    · have hdrop : (space ++ ([43] ++ (digits ++ rest))).dropWhile isspace = 43 :: d :: ds := by
        rw [List.dropWhile_append_of_pos hspace, hds]
        rfl
      rw [atol, hdrop]
      show min (leadingDigits (d :: ds) : ℤ) (2 ^ 63 - 1) = _
      rw [hvalue]
      omega

end Digits

end Lib.CString
