import PcapSipDump.Capture.Template

/-!
# The text that a packet adds to a path

The strings that replace `%f`, `%t` and `%i` come from a packet.  After their translation by
`asciisan` they have neither a slash nor a percent sign, and no character that is not printed.
So the slashes and the percent signs of an expanded template are those of the template.
-/

namespace PcapSipDump

open Lib.CString

/-! ### The translation -/

lemma length_asciisan : asciisan.length = 128 := by simp [asciisan, ascii]

/-- The characters of the table are printed, and none is a percent sign or a slash. -/
lemma mem_asciisan : ∀ c ∈ asciisan, c ≠ 37 ∧ c ≠ 47 ∧ 32 < c ∧ c < 127 := by decide +kernel

/-- The index into the table has no highest bit. -/
lemma mem_sanitize {v : Bytes} {c : UInt8} (h : c ∈ sanitize v) : c ∈ asciisan := by
  obtain ⟨b, -, rfl⟩ := List.mem_map.mp h
  have hlt : (b &&& 0x7f).toNat < asciisan.length := by
    rw [length_asciisan, UInt8.toNat_and]
    exact Nat.and_le_right.trans_lt (by decide)
  rw [List.getD_eq_getElem?_getD, List.getElem?_eq_getElem hlt, Option.getD_some]
  exact List.getElem_mem hlt

lemma not_mem_sanitize_percent (v : Bytes) : 37 ∉ sanitize v :=
  fun h => (mem_asciisan 37 (mem_sanitize h)).1 rfl

lemma not_mem_sanitize_slash (v : Bytes) : 47 ∉ sanitize v :=
  fun h => (mem_asciisan 47 (mem_sanitize h)).2.1 rfl

/-! ### What the pieces are made of -/

section MadeOf

variable (caller called callid : Bytes)

/-- The pieces that a template is read as: its characters, but for some codes, for which there are
strings. -/
inductive MadeOf : Bytes → List Piece → Prop
  | nil : MadeOf [] []
  | char {t : Bytes} {ps : List Piece} (c : UInt8) : MadeOf t ps → MadeOf (c :: t) (.char c :: ps)
  | code {t : Bytes} {ps : List Piece} {c : UInt8} {v : Bytes} :
      templateString caller called callid c = some v → MadeOf t ps →
        MadeOf (37 :: c :: t) (.string v :: ps)

variable {caller called callid}

/-- The rounds of the loop read the template from its start to its end. -/
lemma madeOf_expandPieces (t : Bytes) (room : UInt64) :
    MadeOf caller called callid t (expandPieces caller called callid t room) := by
  fun_induction expandPieces caller called callid t room with
  | case1 room => exact .nil
  | case2 c room => exact .char c .nil
  | case3 c0 c1 rest room v hv hfits ih =>
    obtain ⟨rfl, -⟩ := hfits
    exact .code hv ih
  | case4 c0 c1 rest room v hv hfits ih => exact .char c0 ih
  | case5 c0 c1 rest room hv ih => exact .char c0 ih

/-- A code is none of the characters that matter to a path or to `strftime`. -/
lemma code_ne {c : UInt8} {v : Bytes} (h : templateString caller called callid c = some v) :
    c ≠ 37 ∧ c ≠ 47 := by
  constructor <;> rintro rfl <;> exact absurd h (by simp [templateString])

namespace MadeOf

variable {t : Bytes} {ps : List Piece}

/-- The slashes of the expansion are those of the template. -/
lemma count_slash (h : MadeOf caller called callid t ps) :
    (ps.flatMap Piece.bytes).count 47 = t.count 47 := by
  induction h with
  | nil => rfl
  | char c _ ih =>
    rw [List.flatMap_cons, Piece.bytes, List.singleton_append, List.count_cons, List.count_cons, ih]
  | code hv _ ih =>
    rw [List.flatMap_cons, List.count_append, ih, Piece.bytes,
      List.count_eq_zero_of_not_mem (not_mem_sanitize_slash _), Nat.zero_add,
      List.count_cons_of_ne (by decide), List.count_cons_of_ne (code_ne hv).2]

end MadeOf

end MadeOf

/-- The only pieces with a percent sign are those of the template. -/
lemma eq_char_of_mem_percent {p : Piece} (h : 37 ∈ p.bytes) : p = .char 37 := by
  cases p with
  | char c => rw [← List.mem_singleton.mp h]
  | string v => exact absurd h (not_mem_sanitize_percent v)

/-- **The text of a packet in a path.**  The string that is given to `strftime` is put together from
the pieces of the template.  It has as many slashes as the template, its percent signs are copied
from the template, and each string takes the place of a code with as many characters as it has
bytes, all of them printed and none a blank. -/
theorem template_text (format caller called callid : CStr) :
    let ps := expandPieces caller.bytes called.bytes callid.bytes format.bytes
      (UInt64.ofNat (format.bytes.length + 256))
    let text := expandDirTemplate format.bytes caller.bytes called.bytes callid.bytes
    text = ps.flatMap Piece.bytes ∧
      MadeOf caller.bytes called.bytes callid.bytes format.bytes ps ∧
      text.count 47 = format.bytes.count 47 ∧
      (∀ p ∈ ps, 37 ∈ p.bytes → p = .char 37) ∧
      ∀ v, .string v ∈ ps → (Piece.string v).bytes.length = v.length ∧
        ∀ c ∈ (Piece.string v).bytes, 32 < c ∧ c < 127 := by
  intro ps text
  have htext : text = ps.flatMap Piece.bytes := (flatMap_expandPieces _ _ _ _ _).symm
  have hmade : MadeOf caller.bytes called.bytes callid.bytes format.bytes ps :=
    madeOf_expandPieces _ _
  refine ⟨htext, hmade, ?_, fun p _ => eq_char_of_mem_percent, fun v _ => ?_⟩
  · rw [htext, hmade.count_slash]
  · exact ⟨length_sanitize v, fun c hc => (mem_asciisan c (mem_sanitize hc)).2.2⟩

end PcapSipDump
