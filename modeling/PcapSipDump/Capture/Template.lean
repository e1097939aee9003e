import PcapSipDump.Capture.FileName

/-!
# The buffer of the template expansion

`expand_dir_template` expands the codes of a template into a buffer that has 256 bytes more than
the template.  Before a string is copied its length is compared with the room that is left, but
what follows it in the template is not.  So the expansion stays in the buffer exactly when the
strings that find room make the template grow by less than 256 bytes.
-/

namespace PcapSipDump

open Lib.CString

/-! ### The pieces of an expansion -/

/-- What a round of the loop of `expand_dir_template` puts into `s1`: a character of the template,
or one of the three strings. -/
inductive Piece where
  | char (c : UInt8)
  | string (v : Bytes)
deriving DecidableEq

/-- The bytes of a piece, those of a string after the translation by `asciisan`. -/
def Piece.bytes : Piece → Bytes
  | .char c => [c]
  | .string v => sanitize v

/-- The indices that are written to for a piece at position `pos`: by `strcpy`, which also writes
a terminator, and again by the translation. -/
def Piece.writes (pos : ℕ) : Piece → List ℕ
  | .char _ => [pos]
  | .string v => List.range' pos (v.length + 1) ++ List.range' pos v.length

section Pieces

variable (caller called callid : Bytes)

/-- The pieces of an expansion, in the rounds of `expandFrom`. -/
def expandPieces : Bytes → UInt64 → List Piece
  | [], _ => []
  | [c], _ => [.char c]
  | c0 :: c1 :: rest, room =>
      match templateString caller called callid c1 with
      | some v =>
          if c0 = 37 ∧ UInt64.ofNat v.length < room then
            .string v :: expandPieces rest (room - UInt64.ofNat v.length)
          else .char c0 :: expandPieces (c1 :: rest) (room - 1)
      | none => .char c0 :: expandPieces (c1 :: rest) (room - 1)

/-- The expansion is put together from its pieces. -/
lemma flatMap_expandPieces (t : Bytes) (room : UInt64) :
    (expandPieces caller called callid t room).flatMap Piece.bytes =
      expandFrom caller called callid t room := by
  fun_induction expandFrom caller called callid t room with
  | case1 room => rfl
  | case2 c room => rfl
  | case3 c0 c1 rest room v hv hfits ih =>
    rw [expandPieces, hv]
    simp only [if_pos hfits, List.flatMap_cons, ih, Piece.bytes]
  | case4 c0 c1 rest room v hv hfits ih =>
    rw [expandPieces, hv]
    simp only [if_neg hfits, List.flatMap_cons, ih, Piece.bytes, List.singleton_append]
  | case5 c0 c1 rest room hv ih =>
    rw [expandPieces, hv]
    simp only [List.flatMap_cons, ih, Piece.bytes, List.singleton_append]

end Pieces

/-! ### The rounds of the loop -/

section Rounds

variable {caller called callid : Bytes}

/-- A character that begins no code takes one byte of the room. -/
lemma expandFrom_char {c : UInt8} (hc : c ≠ 37) (rest : Bytes) (room : UInt64) :
    expandFrom caller called callid (c :: rest) room =
      c :: expandFrom caller called callid rest (room - 1) := by
  cases rest with
  | nil => rfl
  | cons c1 rest =>
    rw [expandFrom]
    split
    · rw [if_neg fun h => hc h.1]
    · rfl

/-- A `%` that begins none of the three codes is copied. -/
lemma expandFrom_percent {c : UInt8} (hc : templateString caller called callid c = none)
    (rest : Bytes) (room : UInt64) :
    expandFrom caller called callid (37 :: c :: rest) room =
      37 :: expandFrom caller called callid (c :: rest) (room - 1) := by
  rw [expandFrom, hc]

/-- A code is replaced by its string if this finds room. -/
lemma expandFrom_code {c : UInt8} {v : Bytes}
    (hv : templateString caller called callid c = some v) (rest : Bytes) (room : UInt64) :
    expandFrom caller called callid (37 :: c :: rest) room =
      if UInt64.ofNat v.length < room then
        sanitize v ++ expandFrom caller called callid rest (room - UInt64.ofNat v.length)
      else 37 :: expandFrom caller called callid (c :: rest) (room - 1) := by
  rw [expandFrom, hv]
  simp only [true_and]

end Rounds

@[simp] lemma length_sanitize (s : Bytes) : (sanitize s).length = s.length := List.length_map _

/-- The indices that are written to from position `pos` on; the last one is that of the
terminator. -/
def writesFrom : List Piece → ℕ → List ℕ
  | [], pos => [pos]
  | p :: ps, pos => p.writes pos ++ writesFrom ps (pos + p.bytes.length)

lemma mem_writes {p : Piece} {pos k : ℕ} (h : k ∈ p.writes pos) :
    pos ≤ k ∧ k ≤ pos + p.bytes.length := by
  cases p with
  | char c =>
    obtain rfl : k = pos := List.mem_singleton.mp h
    exact ⟨le_refl k, Nat.le_add_right _ _⟩
  | string v =>
    simp only [Piece.writes, List.mem_append, List.mem_range'_1] at h
    simp only [Piece.bytes, length_sanitize]
    omega

/-- The expansion and its terminator are written, and nothing behind. -/
lemma writesFrom_lt_iff (ps : List Piece) (pos n : ℕ) :
    (∀ k ∈ writesFrom ps pos, k < n) ↔ pos + (ps.flatMap Piece.bytes).length < n := by
  induction ps generalizing pos with
  | nil => simp [writesFrom]
  | cons p ps ih =>
    simp only [writesFrom, List.mem_append, or_imp, forall_and, ih, List.flatMap_cons,
      List.length_append]
    constructor
    · rintro ⟨-, h⟩
      omega
    · intro h
      refine ⟨fun k hk => ?_, by omega⟩
      have hle := (mem_writes hk).2
      omega

/-! ### The growth of a template -/

section Growth

variable (caller called callid : Bytes)

/-- The codes of a template that starts at position `i`, each with its position and string. -/
def templateCodes : Bytes → ℕ → List (ℕ × Bytes)
  | c0 :: c1 :: rest, i =>
      match templateString caller called callid c1 with
      | some v =>
          if c0 = 37 then (i, v) :: templateCodes rest (i + 2)
          else templateCodes (c1 :: rest) (i + 1)
      | none => templateCodes (c1 :: rest) (i + 1)
  | _, _ => []

/-- By how much the strings that replace their codes make a template longer, in a buffer of `s1l`
bytes, when those before have made it longer by `g`.  A string replaces its code when it is
shorter than what is left of the buffer. -/
def growth (s1l : ℕ) : List (ℕ × Bytes) → ℤ → ℤ
  | [], g => g
  | (i, v) :: codes, g =>
      if i + g + v.length < s1l then growth s1l codes (g + v.length - 2) else growth s1l codes g

lemma templateString_percent : templateString caller called callid 37 = none := rfl

/-- Behind a code the scan goes on with the next character. -/
lemma templateCodes_skip {c : UInt8} (hc : c ≠ 37) (rest : Bytes) (i : ℕ) :
    templateCodes caller called callid (c :: rest) i =
      templateCodes caller called callid rest (i + 1) := by
  cases rest with
  | nil => rfl
  | cons c1 rest =>
    rw [templateCodes]
    split
    · rw [if_neg hc]
    · rfl

lemma le_of_mem_templateCodes {t : Bytes} {i : ℕ} :
    ∀ code ∈ templateCodes caller called callid t i, i ≤ code.1 := by
  fun_induction templateCodes caller called callid t i with
  | case1 c1 rest i v hv ih =>
    intro code hcode
    rcases List.mem_cons.mp hcode with rfl | hcode
    · exact le_refl i
    · have hle := ih code hcode
      omega
  | case2 i c0 c1 rest v hv hc ih =>
    intro code hcode
    have hle := ih code hcode
    omega
  | case3 i c0 c1 rest hv ih =>
    intro code hcode
    have hle := ih code hcode
    omega
  | case4 i t ht => simp

/-- When the buffer is full no string replaces its code. -/
lemma growth_of_full {s1l : ℕ} {codes : List (ℕ × Bytes)} {g : ℤ}
    (h : ∀ code ∈ codes, (s1l : ℤ) ≤ code.1 + g) : growth s1l codes g = g := by
  induction codes with
  | nil => rfl
  | cons code codes ih =>
    obtain ⟨i, v⟩ := code
    have hfull : (s1l : ℤ) ≤ i + g := h (i, v) List.mem_cons_self
    rw [growth, if_neg (by omega)]
    exact ih fun code hcode => h code (List.mem_cons_of_mem _ hcode)

/-- A character takes one byte of the room; if it takes the last, the template has already become
longer by 256 bytes. -/
lemma fits_after_char {s1l i n len : ℕ} {room : UInt64} {g : ℤ} {codes : List (ℕ × Bytes)}
    (hs1l : i + (n + 1) + 256 = s1l) (hroom : i + g + room.toNat = s1l) (hpos : 0 < room.toNat)
    (hcodes : ∀ code ∈ codes, i + 1 ≤ code.1)
    (ih : 0 < (room - 1).toNat → ((i + 1 : ℕ) : ℤ) + g + (room - 1).toNat = s1l →
      (len < (room - 1).toNat ↔ growth s1l codes g < 256)) :
    len + 1 < room.toNat ↔ growth s1l codes g < 256 := by
  have hone : (room - 1).toNat = room.toNat - 1 :=
    UInt64.toNat_sub_of_le _ _ (UInt64.le_iff_toNat_le.mpr (show 1 ≤ room.toNat from hpos))
  by_cases hlast : room.toNat = 1
  · rw [growth_of_full fun code hcode => ?_]
    · omega
    · have hle := hcodes code hcode
      omega
  · rw [← ih (by omega) (by omega)]
    omega

/-- The rest of the expansion fits into the room that is left when the strings do not make the
template longer by 256 bytes.  The position in the buffer is `i + g`. -/
lemma length_expandFrom_lt_iff
    (hlengths : ∀ {c v}, templateString caller called callid c = some v → v.length < 2 ^ 63)
    {t : Bytes} {room : UInt64} {s1l i : ℕ} {g : ℤ}
    (hs1l : i + t.length + 256 = s1l) (hroom : i + g + room.toNat = s1l) (hpos : 0 < room.toNat) :
    (expandFrom caller called callid t room).length < room.toNat ↔
      growth s1l (templateCodes caller called callid t i) g < 256 := by
  fun_induction expandFrom caller called callid t room generalizing i g with
  | case1 room =>
    show 0 < room.toNat ↔ g < 256
    rw [List.length_nil] at hs1l
    omega
  | case2 c room =>
    show 1 < room.toNat ↔ g < 256
    rw [List.length_singleton] at hs1l
    omega
  | case3 c0 c1 rest room v hv hfits ih =>
    obtain ⟨rfl, hlt⟩ := hfits
    have hv64 : (UInt64.ofNat v.length).toNat = v.length :=
      UInt64.toNat_ofNat_of_lt' ((hlengths hv).trans (by decide))
    rw [UInt64.lt_iff_toNat_lt, hv64] at hlt
    have hroom' : (room - UInt64.ofNat v.length).toNat = room.toNat - v.length := by
      rw [UInt64.toNat_sub_of_le _ _ (UInt64.le_iff_toNat_le.mpr (hv64.trans_le hlt.le)), hv64]
    rw [List.length_cons, List.length_cons] at hs1l
    rw [templateCodes, hv]
    simp only [if_true]
    rw [growth, if_pos (by omega), ← ih (i := i + 2) (by omega) (by omega) (by omega),
      List.length_append, length_sanitize]
    omega
  | case4 c0 c1 rest room v hv hfits ih =>
    have hcodes : growth s1l (templateCodes caller called callid (c0 :: c1 :: rest) i) g =
        growth s1l (templateCodes caller called callid (c1 :: rest) (i + 1)) g := by
      rw [templateCodes, hv]
      by_cases hc : c0 = 37
      · have hlong : ¬v.length < room.toNat := by
          intro hlt
          refine hfits ⟨hc, ?_⟩
          rw [UInt64.lt_iff_toNat_lt,
            UInt64.toNat_ofNat_of_lt' ((hlengths hv).trans (by decide))]
          exact hlt
        have hc1 : c1 ≠ 37 := by
          rintro rfl
          simp [templateString_percent] at hv
        simp only [if_pos hc]
        rw [growth, if_neg (by omega), templateCodes_skip caller called callid hc1]
      · simp only [if_neg hc]
    rw [List.length_cons] at hs1l
    rw [hcodes]
    exact fits_after_char hs1l hroom hpos (le_of_mem_templateCodes caller called callid)
      fun hpos' hroom' => ih (by omega) hroom' hpos'
  | case5 c0 c1 rest room hv ih =>
    rw [List.length_cons] at hs1l
    rw [templateCodes, hv]
    exact fits_after_char hs1l hroom hpos (le_of_mem_templateCodes caller called callid)
      fun hpos' hroom' => ih (by omega) hroom' hpos'

end Growth

/-- No string of the packet is as long as half of the address space. -/
def Short (caller called callid : Bytes) : Prop :=
  ∀ {c v}, templateString caller called callid c = some v → v.length < 2 ^ 63

lemma short_cstr (caller called callid : CStr) : Short caller.bytes called.bytes callid.bytes := by
  intro c v hv
  unfold templateString at hv
  split_ifs at hv <;> obtain rfl := Option.some.inj hv
  · exact caller.length_lt
  · exact called.length_lt
  · exact callid.length_lt

/-- The indices at which `expand_dir_template` writes into `s1`. -/
def templateWrites (format caller called callid : Bytes) : List ℕ :=
  writesFrom (expandPieces caller called callid format (UInt64.ofNat (format.length + 256))) 0

/-- **The template expansion and its buffer.**  No write is behind the `strlen(format) + 256` bytes
of the buffer if and only if the strings that find room make the template longer by less than 256
bytes. -/
theorem template_in_buffer_iff (format caller called callid : CStr) :
    (∀ k ∈ templateWrites format.bytes caller.bytes called.bytes callid.bytes,
        k < format.bytes.length + 256) ↔
      growth (format.bytes.length + 256)
        (templateCodes caller.bytes called.bytes callid.bytes format.bytes 0) 0 < 256 := by
  have hroom : (UInt64.ofNat (format.bytes.length + 256)).toNat = format.bytes.length + 256 := by
    have hlt := format.length_lt
    exact UInt64.toNat_ofNat_of_lt' (show _ < 2 ^ 64 by omega)
  rw [templateWrites, writesFrom_lt_iff, flatMap_expandPieces, Nat.zero_add,
    ← length_expandFrom_lt_iff caller.bytes called.bytes callid.bytes
      (short_cstr caller called callid) (i := 0) (g := 0)
      (by omega) (by rw [hroom]; simp) (by omega), hroom]

/-- With the default template the writes go past the buffer for a Call-ID of 262 bytes. -/
theorem template_in_buffer_false :
    ¬∀ format caller called callid : CStr,
      ∀ k ∈ templateWrites format.bytes caller.bytes called.bytes callid.bytes,
        k < format.bytes.length + 256 := by
  intro h
  have hall := h ⟨defaultFntemplate none, by decide +kernel, by decide +kernel⟩
    ⟨ascii "a", by decide +kernel, by decide +kernel⟩
    ⟨ascii "b", by decide +kernel, by decide +kernel⟩
    ⟨List.replicate 262 99, by decide +kernel, by decide +kernel⟩
  exact absurd hall (by decide +kernel)

end PcapSipDump
