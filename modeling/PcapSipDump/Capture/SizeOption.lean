import PcapSipDump.Lib.Scanf

/-!
# The size of the capture buffer

`parse_size_string` multiplies a `long long` and an `unsigned long`, so its result is the product
modulo `2 ^ 64`, and the option `-B` keeps the low 32 bits of it in an `int` before it looks whether
the size is positive.  A product that does not fit an `int` is refused only where these bits happen
to be no positive `int` (`size_option_iff`).
-/

namespace PcapSipDump

open Lib.CString

/-- The table `multipliers`. -/
def multipliers : List (Bytes × ℕ) :=
  [(ascii "", 1), (ascii "b", 1), (ascii "byte", 1), (ascii "bytes", 1), (ascii "kb", 1000),
    (ascii "kib", 1024), (ascii "mb", 1000 * 1000), (ascii "mib", 1024 * 1024),
    (ascii "gb", 1000 * 1000 * 1000), (ascii "gib", 1024 * 1024 * 1024), (ascii "", 0)]

/-- The entries of the table that the loop looks at: those in front of the value 0. -/
def units : List (Bytes × ℕ) := multipliers.takeWhile fun m => m.2 > 0

/-- `sscanf(s, "%lld%31s", &result, multiplier)`.  The result was 0 and the multiplier empty. -/
def scanSize (s : Bytes) : ℤ × Bytes :=
  match scanLongLong s with
  | none => (0, [])
  | some (result, rest) => (result, (scanWord 31 rest).getD [])

/-- `parse_size_string`, of the C string `s`. -/
def parseSizeString (s : Bytes) : ℤ :=
  if s.length ≥ 32 then 0
  else
    let (result, multiplier) := scanSize s
    match units.find? fun m => strcasecmpEq m.1 multiplier with
    | some m => (result * m.2).bmod (2 ^ 64)
    | none => 0

/-- `opt_pcap_buffer_size` after the option `-B`, unless its argument is invalid. -/
def optPcapBufferSize (optarg : Bytes) : Option ℤ :=
  let size := (parseSizeString optarg).bmod (2 ^ 32)
  if size < 1 then none else some size

lemma units_factor : ∀ m ∈ units, 0 < m.2 ∧ m.2 ≤ 2 ^ 30 := by decide

lemma units_text :
    ∀ m ∈ units, m.1.length < 6 ∧ ∀ c ∈ m.1, isspace c = false ∧ isdigit c = false := by
  decide +kernel

/-- No unit is in the table twice. -/
lemma units_find :
    ∀ m ∈ units, units.find? (fun m' => strcasecmpEq m'.1 m.1) = some m := by
  decide

/-! ### Arguments -/

/-- An argument of `-B`: a decimal integer with a unit of the table behind it, in upper or lower
case, or without a unit. -/
structure SizeArgument where
  number : Decimal
  unit : Bytes
  factor : ℕ
  mem_units : (unit.map tolower, factor) ∈ units

namespace SizeArgument

variable (a : SizeArgument)

/-- The argument as it stands on the command line. -/
def text : Bytes := a.number.text ++ a.unit

/-- The size that the argument stands for. -/
def product : ℤ := a.number.value * a.factor

/-- The size is a positive `int`. -/
def FitsInt : Prop := 0 < a.product ∧ a.product < 2 ^ 31

instance : Decidable a.FitsInt := inferInstanceAs (Decidable (_ ∧ _))

/-- The option sets the size to the product or is rejected, and it is not rejected where the product
is a positive `int`. -/
structure ExactOrRejected : Prop where
  exact : ∀ size ∈ optPcapBufferSize a.text, size = a.product
  accepted : a.FitsInt → optPcapBufferSize a.text ≠ none

/-- In an argument of fewer than 32 characters, the product is a positive `int`, or the number is
no `long long`, or the low 32 bits of the product are no positive `int`; in a longer one, the
product is no positive `int`. -/
def SizeCondition : Prop :=
  if a.text.length < 32 then
    a.FitsInt ∨ ¬(-2 ^ 63 ≤ a.number.value ∧ a.number.value < 2 ^ 63) ∨ a.product.bmod (2 ^ 32) ≤ 0
  else ¬a.FitsInt

/-! ### What is read of an argument -/

lemma factor_bounds : 0 < a.factor ∧ a.factor ≤ 2 ^ 30 := units_factor _ a.mem_units

lemma length_unit : a.unit.length ≤ 31 := by
  have h := (units_text _ a.mem_units).1
  rw [List.length_map] at h
  omega

lemma unit_chars : ∀ c ∈ a.unit, isspace c = false ∧ isdigit c = false := by
  intro c hc
  have h := (units_text _ a.mem_units).2 (tolower c) (List.mem_map_of_mem hc)
  rwa [isspace_tolower, isdigit_tolower] at h

lemma scanSize_text : scanSize a.text = (a.number.saturated, a.unit) := by
  have hhead : isdigit (a.unit.headD 0) = false := by
    rcases hunit : a.unit with _ | ⟨c, rest⟩
    · rfl
    · exact (a.unit_chars c (hunit ▸ List.mem_cons_self)).2
  have hword : (scanWord 31 a.unit).getD [] = a.unit :=
    scanWord_getD (fun c hc => (a.unit_chars c hc).1) a.length_unit
  rw [scanSize, text, a.number.scanLongLong_text hhead]
  simp only [hword]

/-- An argument that is not too long is read as the product, modulo `2 ^ 64` and with a number that
is no `long long` replaced by the nearest one. -/
lemma parseSizeString_text (hlen : a.text.length < 32) :
    parseSizeString a.text = (a.number.saturated * a.factor).bmod (2 ^ 64) := by
  have hfind : units.find? (fun m => strcasecmpEq m.1 a.unit) =
      some (a.unit.map tolower, a.factor) := by
    have h := units_find _ a.mem_units
    simpa only [strcasecmpEq_map_tolower] using h
  rw [parseSizeString, if_neg (not_le.mpr hlen), scanSize_text]
  simp only [hfind]

lemma optPcapBufferSize_text (hlen : a.text.length < 32) :
    optPcapBufferSize a.text =
      if (a.number.saturated * a.factor).bmod (2 ^ 32) < 1 then none
      else some ((a.number.saturated * a.factor).bmod (2 ^ 32)) := by
  rw [optPcapBufferSize, a.parseSizeString_text hlen, Int.bmod_bmod_of_dvd (by decide)]

lemma optPcapBufferSize_long (hlen : 32 ≤ a.text.length) : optPcapBufferSize a.text = none := by
  rw [optPcapBufferSize, parseSizeString, if_pos hlen]
  rfl

/-- A number that is no `long long` is always rejected: the product of the nearest one is a multiple
of `2 ^ 32`, or less than that by the unit. -/
lemma bmod_saturated (h : ¬(-2 ^ 63 ≤ a.number.value ∧ a.number.value < 2 ^ 63)) :
    (a.number.saturated * a.factor).bmod (2 ^ 32) < 1 := by
  obtain ⟨hpos, hle⟩ := a.factor_bounds
  rcases lt_or_ge a.number.value 0 with hneg | hnonneg
  · have hsat : a.number.saturated = -2 ^ 63 := by
      rw [Decimal.saturated]
      omega
    have hsum : (-2 ^ 63 : ℤ) * a.factor = 0 + (2 ^ 32 : ℕ) * (-2 ^ 31 * a.factor) := by
      push_cast
      omega
    rw [hsat, hsum, Int.add_mul_bmod_self_left]
    decide
  · have hsat : a.number.saturated = 2 ^ 63 - 1 := by
      rw [Decimal.saturated]
      omega
    have hsum : (2 ^ 63 - 1 : ℤ) * a.factor = -a.factor + (2 ^ 32 : ℕ) * (2 ^ 31 * a.factor) := by
      push_cast
      omega
    rw [hsat, hsum, Int.add_mul_bmod_self_left, Int.bmod_eq_of_le (by omega) (by omega)]
    omega

/-! ### The option -/

variable {a}

lemma FitsInt.value_range (h : a.FitsInt) :
    -2 ^ 63 ≤ a.number.value ∧ a.number.value < 2 ^ 63 := by
  obtain ⟨hpos, hlt⟩ := h
  rw [product] at hpos hlt
  have hfactor : (1 : ℤ) ≤ a.factor := by exact_mod_cast a.factor_bounds.1
  have hvalue : 0 < a.number.value := (mul_pos_iff_of_pos_right (by omega)).mp hpos
  have hle : a.number.value ≤ a.number.value * a.factor :=
    le_mul_of_one_le_right hvalue.le hfactor
  omega

lemma FitsInt.bmod_eq (h : a.FitsInt) : a.product.bmod (2 ^ 32) = a.product := by
  obtain ⟨hpos, hlt⟩ := h
  exact Int.bmod_eq_of_le (by omega) (by omega)

lemma exactOrRejected_of_none (h : optPcapBufferSize a.text = none) :
    a.ExactOrRejected ↔ ¬a.FitsInt := by
  constructor
  · exact fun hexact hfits => hexact.accepted hfits h
  · intro hfits
    refine ⟨fun size hsize => ?_, fun hfits' => absurd hfits' hfits⟩
    rw [h] at hsize
    cases hsize

lemma exactOrRejected_of_some {size : ℤ} (h : optPcapBufferSize a.text = some size) :
    a.ExactOrRejected ↔ size = a.product := by
  constructor
  · exact fun hexact => hexact.exact size h
  · rintro rfl
    refine ⟨fun size hsize => ?_, fun _ hnone => ?_⟩
    · rw [h] at hsize
      exact (Option.some.inj hsize).symm
    · rw [h] at hnone
      cases hnone

end SizeArgument

/-- **When `-B` is exact.**  For every argument that is a decimal integer with an optional unit, the
option sets the buffer size to the product or is rejected, and does not reject a product that is a
positive `int`, exactly under the condition `SizeCondition`. -/
theorem size_option_iff (a : SizeArgument) : a.ExactOrRejected ↔ a.SizeCondition := by
  rw [SizeArgument.SizeCondition]
  split
  · rename_i hlen
    have hopt := a.optPcapBufferSize_text hlen
    by_cases hrange : -2 ^ 63 ≤ a.number.value ∧ a.number.value < 2 ^ 63
    · rw [a.number.saturated_eq hrange.1 hrange.2, ← SizeArgument.product] at hopt
      split at hopt
      · -- the option is rejected
        rename_i hsize
        rw [SizeArgument.exactOrRejected_of_none hopt]
        refine iff_of_true (fun hfits => ?_) (Or.inr (Or.inr (by omega)))
        rw [hfits.bmod_eq] at hsize
        exact not_le.mpr hsize hfits.1
      · rename_i hsize
        rw [SizeArgument.exactOrRejected_of_some hopt]
        constructor
        · intro heq
          have hlt := Int.bmod_lt (x := a.product) (m := 2 ^ 32) (by decide)
          exact Or.inl ⟨by omega, by omega⟩
        · rintro (hfits | hno | hnonpos)
          · exact hfits.bmod_eq
          · exact absurd hrange hno
          · omega
    · rw [if_pos (a.bmod_saturated hrange)] at hopt
      rw [SizeArgument.exactOrRejected_of_none hopt]
      exact iff_of_true (fun hfits => hrange hfits.value_range) (Or.inr (Or.inl hrange))
  · rename_i hlen
    exact SizeArgument.exactOrRejected_of_none (a.optPcapBufferSize_long (not_lt.mp hlen))

/-- `-B 5GiB` sets the size to 1 GiB. -/
theorem size_option_false :
    ∃ a : SizeArgument, a.text = ascii "5GiB" ∧ a.product = 5368709120 ∧
      optPcapBufferSize a.text = some 1073741824 ∧ ¬a.ExactOrRejected := by
  let a : SizeArgument :=
    { number := ⟨.none, ascii "5", by decide +kernel, by decide⟩
      unit := ascii "GiB"
      factor := 1024 * 1024 * 1024
      mem_units := by decide +kernel }
  have hproduct : a.product = 5368709120 := by decide +kernel
  have hopt : optPcapBufferSize a.text = some 1073741824 := by decide +kernel
  refine ⟨a, by decide +kernel, hproduct, hopt, fun h => ?_⟩
  have hexact := h.exact _ hopt
  rw [hproduct] at hexact
  exact absurd hexact (by decide)

end PcapSipDump
