import Mathlib.Data.Nat.Digits.Lemmas
import PcapSipDump.Lib.CString

/-!
# Conversions of `sscanf`

The conversions `%lld` and `%s` with a width.  `Decimal.scanLongLong_text` says what the first one
reads of a text that starts with a decimal integer: the integer, or the nearest `long long` if it is
none.  It stops behind the digits.
-/

namespace Lib.CString

/-- What is behind the sign of a number, if it has one. -/
def afterSign : Bytes → Bytes
  | 45 :: t => t
  | 43 :: t => t
  | t => t

/-- `%lld`: the number at the start of `s` behind blanks and what is left of `s` then, unless there
is no number.  Like `strtoll`, it saturates. -/
def scanLongLong (s : Bytes) : Option (ℤ × Bytes) :=
  let digits := afterSign (s.dropWhile isspace)
  if isdigit (digits.headD 0) then some (atol s, digits.dropWhile isdigit) else none

/-- `%s` with a width: the word at the start of `s` behind blanks, unless there is none. -/
def scanWord (width : ℕ) (s : Bytes) : Option Bytes :=
  let word := ((s.dropWhile isspace).takeWhile fun c => !isspace c).take width
  if word = [] then none else some word

/-! ### Decimal integers -/

/-- The sign in front of a number. -/
inductive Sign where
  | none
  | plus
  | minus
deriving DecidableEq

/-- The text of a sign. -/
def Sign.text : Sign → Bytes
  | none => []
  | plus => [43]
  | minus => [45]

/-- A decimal integer with an optional sign. -/
structure Decimal where
  sign : Sign
  digits : Bytes
  isdigit_of_mem : ∀ c ∈ digits, isdigit c
  ne_nil : digits ≠ []

namespace Decimal

variable (n : Decimal) {t : Bytes}

/-- The text of the integer. -/
def text : Bytes := n.sign.text ++ n.digits

/-- The integer. -/
def value : ℤ :=
  match n.sign with
  | .minus => -(leadingDigits n.digits : ℤ)
  | _ => leadingDigits n.digits

/-- The `long long` that is nearest to the integer. -/
def saturated : ℤ := max (-2 ^ 63) (min n.value (2 ^ 63 - 1))

lemma saturated_eq (h : -2 ^ 63 ≤ n.value) (h' : n.value < 2 ^ 63) : n.saturated = n.value := by
  rw [saturated]
  omega

/-- No blanks are skipped, and one sign at most. -/
lemma scanLongLong_eq (ht : isdigit (t.headD 0) = false) :
    scanLongLong (n.text ++ t) = some (atol (n.text ++ t), t) := by
  obtain ⟨d, ds, hdigits, hd⟩ := exists_cons_isdigit n.isdigit_of_mem n.ne_nil t
  have hbehind : afterSign ((n.text ++ t).dropWhile isspace) = n.digits ++ t := by
    rw [text, List.append_assoc]
    cases n.sign with
    | none =>
      have hspace : ¬isspace d := by rw [isspace_of_isdigit hd]; decide
      have hminus : d ≠ 45 := fun h => absurd (h ▸ hd) (by decide)
      have hplus : d ≠ 43 := fun h => absurd (h ▸ hd) (by decide)
      rw [Sign.text, List.nil_append, hdigits, List.dropWhile_cons_of_neg hspace]
      unfold afterSign
      split
      · rename_i h
        exact absurd (List.cons.inj h).1 hminus
      · rename_i h
        exact absurd (List.cons.inj h).1 hplus
      · rfl
    | plus => rfl
    | minus => rfl
  rw [scanLongLong, hbehind, dropWhile_isdigit n.isdigit_of_mem ht, hdigits, List.headD_cons,
    if_pos hd]

/-- `%lld` reads a decimal integer that no digit follows. -/
theorem scanLongLong_text (ht : isdigit (t.headD 0) = false) :
    scanLongLong (n.text ++ t) = some (n.saturated, t) := by
  have hdigits := leadingDigits_append n.isdigit_of_mem ht
  have hnat : (0 : ℤ) ≤ leadingDigits n.digits := Int.natCast_nonneg _
  have hatol : atol (n.text ++ t) = n.saturated := by
    rw [text, saturated, value, List.append_assoc]
    cases n.sign with
    | none =>
      have hhead := isdigit_headD n.isdigit_of_mem n.ne_nil t
      show atol (n.digits ++ t) =
        max (-2 ^ 63) (min (leadingDigits n.digits : ℤ) (2 ^ 63 - 1))
      rw [atol_of_isdigit hhead, hdigits]
      omega
    | plus =>
      show min (leadingDigits (n.digits ++ t) : ℤ) (2 ^ 63 - 1) =
        max (-2 ^ 63) (min (leadingDigits n.digits : ℤ) (2 ^ 63 - 1))
      rw [hdigits]
      omega
    | minus =>
      show max (-(leadingDigits (n.digits ++ t) : ℤ)) (-2 ^ 63) =
        max (-2 ^ 63) (min (-(leadingDigits n.digits : ℤ)) (2 ^ 63 - 1))
      rw [hdigits]
      omega
  rw [n.scanLongLong_eq ht, hatol]

/-- What `atol` reads of a decimal integer that no digit follows. -/
lemma atol_text (ht : isdigit (t.headD 0) = false) : atol (n.text ++ t) = n.saturated := by
  have hscan := n.scanLongLong_text ht
  rw [n.scanLongLong_eq ht] at hscan
  exact congrArg Prod.fst (Option.some.inj hscan)

/-! ### Printing an integer -/

/-- The decimal digits of a number. -/
def natDigits (n : ℕ) : Bytes :=
  if n = 0 then [48] else (Nat.digits 10 n).reverse.map fun d => UInt8.ofNat (48 + d)

lemma isdigit_ofNat {d : ℕ} (hd : d < 10) :
    isdigit (UInt8.ofNat (48 + d)) ∧ (UInt8.ofNat (48 + d)).toNat - 48 = d := by
  have hall : ∀ d < 10, isdigit (UInt8.ofNat (48 + d)) ∧ (UInt8.ofNat (48 + d)).toNat - 48 = d := by
    decide
  exact hall d hd

lemma isdigit_natDigits (n : ℕ) : ∀ c ∈ natDigits n, isdigit c := by
  intro c hc
  unfold natDigits at hc
  split at hc
  · rw [List.mem_singleton.mp hc]
    decide
  · obtain ⟨d, hd, rfl⟩ := List.mem_map.mp hc
    exact (isdigit_ofNat (Nat.digits_lt_base (by decide) (List.mem_reverse.mp hd))).1

/-- The digits are read as the number. -/
lemma leadingDigits_natDigits (n : ℕ) : leadingDigits (natDigits n) = n := by
  have hfold : ∀ ds : List ℕ, (∀ d ∈ ds, d < 10) →
      (ds.reverse.map fun d => UInt8.ofNat (48 + d)).foldl (fun v c => 10 * v + (c.toNat - 48)) 0 =
        Nat.ofDigits 10 ds := by
    intro ds hds
    induction ds with
    | nil => rfl
    | cons d ds ih =>
      obtain ⟨hd, hds⟩ := List.forall_mem_cons.mp hds
      rw [List.reverse_cons, List.map_append, List.foldl_append, ih hds, List.map_singleton,
        List.foldl_cons, List.foldl_nil, (isdigit_ofNat hd).2, Nat.ofDigits_cons]
      omega
  have htake : (natDigits n).takeWhile isdigit = natDigits n :=
    List.takeWhile_eq_self_iff.mpr (isdigit_natDigits n)
  rw [leadingDigits, htake, natDigits]
  split
  · rename_i hn
    rw [hn]
    rfl
  · rw [hfold _ fun d hd => Nat.digits_lt_base (by decide) hd, Nat.ofDigits_digits]

/-- An integer as a decimal. -/
def ofInt (z : ℤ) : Decimal where
  sign := if z < 0 then .minus else .none
  digits := natDigits z.natAbs
  isdigit_of_mem := isdigit_natDigits _
  ne_nil := by
    unfold natDigits
    split
    · exact List.cons_ne_nil _ _
    · rename_i hn
      simpa [Nat.digits_eq_nil_iff_eq_zero] using hn

@[simp] lemma value_ofInt (z : ℤ) : (ofInt z).value = z := by
  rw [value, ofInt]
  simp only [leadingDigits_natDigits]
  split
  · rename_i hz
    split at hz
    · omega
    · cases hz
  · rename_i hz
    split at hz
    · exact absurd rfl hz
    · omega

end Decimal

/-- A word at the end of the string is read whole if the width allows it. -/
lemma scanWord_getD {word : Bytes} {width : ℕ} (hword : ∀ c ∈ word, isspace c = false)
    (hlen : word.length ≤ width) : (scanWord width word).getD [] = word := by
  have hall : (word.dropWhile isspace).takeWhile (fun c => !isspace c) = word := by
    have hdrop : word.dropWhile isspace = word := by
      refine List.dropWhile_eq_self_iff.mpr fun hpos => ?_
      rw [hword _ (List.getElem_mem hpos)]
      decide
    rw [hdrop]
    exact List.takeWhile_eq_self_iff.mpr fun c hc => by rw [hword c hc]; rfl
  rw [scanWord, hall, List.take_of_length_le hlen]
  split
  · rename_i hnil
    exact hnil.symm
  · rfl

end Lib.CString
