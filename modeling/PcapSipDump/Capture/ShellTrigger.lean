import PcapSipDump.Capture.Loop
import PcapSipDump.Capture.Strftime
import PcapSipDump.Capture.Template
import PcapSipDump.Capture.Trigger

/-!
# Shell triggers

The parameter of an `sh` trigger is expanded like a file name and given to the shell.  The
translation table of `expand_dir_template` is made for file names: it keeps ten of the characters
that mean something to the shell.  Every character of the string for the shell carries a mark that
says whether it comes from the caller, the callee or the Call-ID.
-/

namespace PcapSipDump

open Lib.CString

variable (conversion : Conversion)

/-! ### The string for the shell -/

/-- The marked bytes of a piece. -/
def Piece.marked : Piece → List (UInt8 × Bool)
  | .char c => [(c, false)]
  | .string v => (sanitize v).map fun c => (c, true)

/-- The string that `Trigger::trigger` passes on for the parameter of an `sh` trigger, with marks
at the characters that the expansion of `%f`, `%t` and `%i` contributes. -/
def shellString (fn caller callee callid param : Bytes) : List (UInt8 × Bool) :=
  if param = ascii "%." then fn.map fun c => (c, false)
  else if 37 ∈ param then
    strftimeFrom conversion ((expandPieces caller callee callid param
      (UInt64.ofNat (param.length + 256))).flatMap Piece.marked) 0
  else param.map fun c => (c, false)

/-- The characters with a special meaning to the shell: `;`, `&`, `|`, parentheses, `<`, `>`, `$`,
the backquote, the backslash, quotes, `*`, `?`, brackets, `#`, `~`, braces and blanks. -/
def shellSpecial : Bytes :=
  [59, 38, 124, 40, 41, 60, 62, 36, 96, 92, 34, 39, 42, 63, 91, 93, 35, 126, 123, 125, 32, 9, 10]

/-- Those that `asciisan` keeps. -/
def shellKept : Bytes := ascii "#&();[]\x7b\x7d~"

/-- The translation of a character by `asciisan`. -/
def translate (c : UInt8) : UInt8 := asciisan.getD (c &&& 0x7f).toNat 0

lemma asciisan_table : ∀ n : Fin 128, asciisan.getD n 0 ≠ 37 ∧ asciisan.getD n 0 ≠ 0 ∧
    (asciisan.getD n 0 ∈ shellSpecial ↔ UInt8.ofNat n ∈ shellKept) := by
  decide +kernel

lemma translate_spec (c : UInt8) : translate c ≠ 37 ∧ translate c ≠ 0 ∧
    (translate c ∈ shellSpecial ↔ c &&& 0x7f ∈ shellKept) := by
  have hlt : (c &&& 0x7f).toNat < 128 := by
    rw [UInt8.toNat_and]
    exact Nat.and_le_right.trans_lt (by decide)
  have h := asciisan_table ⟨_, hlt⟩
  rwa [UInt8.ofNat_toNat] at h

/-! ### What the expansion contributes -/

/-- The bytes of the strings in an expansion that `strftime` copies, before their translation.  A
`%` of the parameter that stands before a code makes `strftime` take the first ones as part of a
specification. -/
def copiedBytes : List Piece → ℕ → Bytes
  | [], _ => []
  | .char _ :: ps, skip + 1 => copiedBytes ps skip
  | .char c :: ps, 0 =>
      copiedBytes ps (if c = 37 then (conversion.spec (ps.flatMap Piece.bytes)).1 else 0)
  | .string v :: ps, skip => v.drop skip ++ copiedBytes ps (skip - v.length)

lemma map_fst_marked (ps : List Piece) :
    (ps.flatMap Piece.marked).map Prod.fst = ps.flatMap Piece.bytes := by
  induction ps with
  | nil => rfl
  | cons p ps ih =>
    rw [List.flatMap_cons, List.flatMap_cons, List.map_append, ih]
    cases p with
    | char c => rfl
    | string v =>
      have hfst : (Prod.fst ∘ fun c : UInt8 => (c, true)) = id := rfl
      rw [Piece.marked, Piece.bytes, List.map_map, hfst, List.map_id]

/-- A translated string has no `%`, so `strftime` copies it but for the end of a specification. -/
lemma strftimeFrom_string (v : Bytes) (s : List (UInt8 × Bool)) (skip : ℕ) :
    strftimeFrom conversion (((sanitize v).map fun c => (c, true)) ++ s) skip =
      ((v.drop skip).map fun c => (translate c, true)) ++
        strftimeFrom conversion s (skip - v.length) := by
  induction v generalizing skip with
  | nil => simp [sanitize]
  | cons c v ih =>
    cases skip with
    | zero =>
      have hc : translate c ≠ 37 := (translate_spec c).1
      have h := ih 0
      rw [List.drop_zero, Nat.zero_sub] at h
      show (if translate c = 37 then _ else (translate c, true) ::
        strftimeFrom conversion (((sanitize v).map fun c => (c, true)) ++ s) 0) = _
      rw [if_neg hc, h]
      simp
    | succ skip =>
      have hlen : skip + 1 - (c :: v).length = skip - v.length := by
        rw [List.length_cons]
        omega
      rw [hlen, List.drop_succ_cons, ← ih skip]
      rfl

/-- The characters that are contributed are the translated ones. -/
lemma mark_mem_strftimeFrom_iff (ps : List Piece) (skip : ℕ) (c : UInt8) :
    (c, true) ∈ strftimeFrom conversion (ps.flatMap Piece.marked) skip ↔
      ∃ b ∈ copiedBytes conversion ps skip, translate b = c := by
  induction ps generalizing skip with
  | nil => simp [strftimeFrom, copiedBytes]
  | cons p ps ih =>
    rw [List.flatMap_cons]
    cases p with
    | char d =>
      cases skip with
      | succ skip => exact ih skip
      | zero =>
        rw [Piece.marked, List.singleton_append, strftimeFrom, map_fst_marked, copiedBytes]
        by_cases hd : d = 37
        · rw [if_pos hd, if_pos hd, List.mem_append, ih]
          simp
        · rw [if_neg hd, if_neg hd, List.mem_cons, ih]
          simp
    | string v =>
      show (c, true) ∈ strftimeFrom conversion (((sanitize v).map fun c => (c, true)) ++ _) skip ↔ _
      rw [strftimeFrom_string, List.mem_append, ih, copiedBytes]
      simp only [List.mem_map, List.mem_append, Prod.mk.injEq, and_true, or_and_right, exists_or]

/-! ### The expansion without marks -/

section Strings

variable {caller callee callid : Bytes}

lemma expandPieces_of_no_percent {t : Bytes} (ht : 37 ∉ t) (room : UInt64) :
    expandPieces caller callee callid t room = t.map Piece.char := by
  fun_induction expandPieces caller callee callid t room with
  | case1 room => rfl
  | case2 c room => rfl
  | case3 c0 c1 rest room v hv hfits ih => exact absurd (hfits.1 ▸ List.mem_cons_self) ht
  | case4 c0 c1 rest room v hv hfits ih =>
    rw [ih fun h => ht (List.mem_cons_of_mem _ h)]
    rfl
  | case5 c0 c1 rest room hv ih =>
    rw [ih fun h => ht (List.mem_cons_of_mem _ h)]
    rfl

lemma copiedBytes_chars (s : Bytes) (skip : ℕ) :
    copiedBytes conversion (s.map Piece.char) skip = [] := by
  induction s generalizing skip with
  | nil => rfl
  | cons c s ih =>
    cases skip with
    | zero => exact ih _
    | succ skip => exact ih skip

/-- The expansion has no NUL. -/
lemma expandFrom_nul_free {t : Bytes} (ht : ∀ c ∈ t, c ≠ 0) (room : UInt64) :
    ∀ c ∈ expandFrom caller callee callid t room, c ≠ 0 := by
  have hsanitize : ∀ v, ∀ c ∈ sanitize v, c ≠ 0 := by
    intro v c hc
    obtain ⟨b, -, rfl⟩ := List.mem_map.mp hc
    exact (translate_spec b).2.1
  fun_induction expandFrom caller callee callid t room with
  | case1 room => simp
  | case2 c room => exact ht
  | case3 c0 c1 rest room v hv hfits ih =>
    rw [List.forall_mem_append]
    exact ⟨hsanitize v, ih fun c hc => ht c (List.mem_cons_of_mem _ (List.mem_cons_of_mem _ hc))⟩
  | case4 c0 c1 rest room v hv hfits ih =>
    obtain ⟨hc0, hrest⟩ := List.forall_mem_cons.mp ht
    exact List.forall_mem_cons.mpr ⟨hc0, ih hrest⟩
  | case5 c0 c1 rest room hv ih =>
    obtain ⟨hc0, hrest⟩ := List.forall_mem_cons.mp ht
    exact List.forall_mem_cons.mpr ⟨hc0, ih hrest⟩

/-- Without the marks the string for the shell is the argument that is passed on, where `print` does
with the expansion of the parameter what `strftime` does. -/
lemma map_fst_shellString {print : Bytes → ℤ → Bytes} (fn : Bytes) {time : ℤ} {param : CStr}
    (hprint : print (expandDirTemplate param.bytes caller callee callid) time =
      strftime conversion (expandDirTemplate param.bytes caller callee callid)) :
    (shellString conversion fn caller callee callid param.bytes).map Prod.fst =
      triggerArg print fn caller callee callid time param.bytes := by
  have hplain : ∀ ps : List Piece, (strftimeFrom conversion (ps.flatMap Piece.marked) 0).map
      Prod.fst = strftime conversion (ps.flatMap Piece.bytes) := by
    intro ps
    rw [strftime, map_fst_strftimeFrom, ← map_fst_marked, List.map_map]
    rfl
  rw [shellString, triggerArg, cstr_eq_self param.nul_free]
  split_ifs with hfn hpercent
  · rw [map_fst_unmarked]
  · rw [hplain, flatMap_expandPieces, ← expandDirTemplate, hprint, cstr_eq_self]
    exact strftime_nul_free (expandFrom_nul_free param.nul_free _)
  · rw [map_fst_unmarked]

end Strings

/-- **What reaches the shell.**  The third argument of an `sh` trigger is the string for the shell.
None of the characters that the expansion of `%f`, `%t` and `%i` contributes to it is special if
and only if no byte of the strings, with its highest bit cleared, is one of those that `asciisan`
keeps.  Here `print` has to do what `strftime` does with the expansion of the parameter, as it does
if the result and its terminator fit the 1024 bytes it is given. -/
theorem shell_trigger_safe_iff {print : Bytes → ℤ → Bytes} (fn : Bytes)
    {caller callee callid param : CStr} {time : ℤ}
    (hprint : print (expandDirTemplate param.bytes caller.bytes callee.bytes callid.bytes) time =
      strftime conversion
        (expandDirTemplate param.bytes caller.bytes callee.bytes callid.bytes)) :
    triggerCommand (ascii "sh") param.bytes =
        some [ascii "/bin/sh", ascii "-c", param.bytes] ∧
      (shellString conversion fn caller.bytes callee.bytes callid.bytes param.bytes).map Prod.fst =
        triggerArg print fn caller.bytes callee.bytes callid.bytes time param.bytes ∧
      ((∀ c, (c, true) ∈ shellString conversion fn caller.bytes callee.bytes callid.bytes
          param.bytes → c ∉ shellSpecial) ↔
        ∀ c ∈ copiedBytes conversion (expandPieces caller.bytes callee.bytes callid.bytes
          param.bytes (UInt64.ofNat (param.bytes.length + 256))) 0, c &&& 0x7f ∉ shellKept) := by
  refine ⟨rfl, map_fst_shellString conversion fn hprint, ?_⟩
  have hno : ∀ s : Bytes, ∀ c, (c, true) ∉ s.map fun d => (d, false) := by
    intro s c hmem
    obtain ⟨d, -, hd⟩ := List.mem_map.mp hmem
    simp at hd
  rw [shellString]
  split_ifs with hfn hpercent
  · -- the path of the file; the parameter has no code
    have hpieces : expandPieces caller.bytes callee.bytes callid.bytes param.bytes
        (UInt64.ofNat (param.bytes.length + 256)) = (ascii "%.").map Piece.char := by
      rw [hfn]
      rfl
    rw [hpieces, copiedBytes_chars]
    exact iff_of_true (fun c hc => absurd hc (hno fn c)) (by simp)
  · simp only [mark_mem_strftimeFrom_iff]
    constructor
    · intro h c hc hkept
      exact h (translate c) ⟨c, hc, rfl⟩ ((translate_spec c).2.2.mpr hkept)
    · rintro h c ⟨b, hb, rfl⟩ hspecial
      exact h b hb ((translate_spec b).2.2.mp hspecial)
  · rw [expandPieces_of_no_percent hpercent, copiedBytes_chars]
    exact iff_of_true (fun c hc => absurd hc (hno _ c)) (by simp)

/-- Nothing special comes from the user `a`. -/
theorem shell_trigger_safe_plain :
    let string := shellString ⟨fun _ => (0, [37]), fun _ => by simp⟩ [] (ascii "a") (ascii "b")
      (ascii "1") (ascii "echo %f")
    string = (ascii "echo ").map (fun c => (c, false)) ++ [(97, true)] ∧
      ∀ c, (c, true) ∈ string → c ∉ shellSpecial := by
  intro string
  have h := @shell_trigger_safe_iff ⟨fun _ => (0, [37]), fun _ => by simp⟩
    (fun format _ => strftime ⟨fun _ => (0, [37]), fun _ => by simp⟩ format) []
    ⟨ascii "a", by simp [ascii], by simp [ascii]⟩ ⟨ascii "b", by simp [ascii], by simp [ascii]⟩
    ⟨ascii "1", by simp [ascii], by simp [ascii]⟩
    ⟨ascii "echo %f", by decide +kernel, by decide +kernel⟩ 0 rfl
  exact ⟨by decide +kernel, h.2.2.mpr (by decide +kernel)⟩

/-- An INVITE from `sip:;reboot;@h`. -/
def rebootInvite : Packet :=
  Packet.captured 0 (ipv4Udp 1 0 [10, 0, 0, 1] [10, 0, 0, 2] 5060 5060
    (ascii "INVITE sip:b@h SIP/2.0\r\nFrom: <sip:;reboot;@h>\r\nTo: <sip:b@h>\r\nCall-ID: 1\r\n"))

/-- With the parameter `echo %f` the shell gets `echo ;reboot;`. -/
theorem shell_trigger_safe_false :
    ¬∀ (conversion : Conversion) (fn : Bytes) (o : Options) (p : Packet) (data : ℕ)
      (method : Bytes) (param : CStr),
      let msg := readSip o p.terminate data method
      ∀ c, (c, true) ∈ shellString conversion fn (cstr msg.caller.toBytes)
        (cstr msg.called.toBytes) msg.callidStr param.bytes → c ∉ shellSpecial := by
  intro h
  have hc := h ⟨fun _ => (0, [37]), fun _ => by simp⟩ [] Options.raw rebootInvite 28
    (ascii "INVITE") ⟨ascii "echo %f", by decide +kernel, by decide +kernel⟩ 59
  exact hc (by decide +kernel) (by decide +kernel)

end PcapSipDump
