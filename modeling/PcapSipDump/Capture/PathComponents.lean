import PcapSipDump.Capture.ShellTrigger
import PcapSipDump.Capture.TemplateText

/-!
# The components of a file's path

The table `asciisan` keeps dots, so a caller, a callee or a Call-ID can make a component of a path
`.` or `..` that is none in the template.  This happens exactly when a component of the template
consists of dots and of codes whose strings are dots or empty, one or two in all
(`path_components_iff`).
-/

namespace PcapSipDump

open Lib.CString

/-! ### Components -/

/-- The names of a directory itself and of its parent. -/
def IsDotName (name : Bytes) : Prop := name = [46] ∨ name = [46, 46]

instance (name : Bytes) : Decidable (IsDotName name) := inferInstanceAs (Decidable (_ ∨ _))

lemma isDotName_iff {name : Bytes} :
    IsDotName name ↔ (∀ c ∈ name, c = 46) ∧ (name.length = 1 ∨ name.length = 2) := by
  constructor
  · rintro (rfl | rfl) <;> simp
  · rintro ⟨hdots, h | h⟩
    · exact Or.inl (List.eq_replicate_iff.mpr ⟨h, hdots⟩)
    · exact Or.inr (List.eq_replicate_iff.mpr ⟨h, hdots⟩)

/-- Reading a path from left to right with the dots of the component so far, unless it has another
character: whether a component is a dot name. -/
def dotScan : Option ℕ → Bytes → Bool
  | dots, [] => dots = some 1 || dots = some 2
  | dots, c :: s =>
      if c = 47 then dots = some 1 || dots = some 2 || dotScan (some 0) s
      else dotScan (if c = 46 then dots.map (· + 1) else none) s

/-- The dots of a component that has gone on with `name`. -/
def dotsAfter (dots : Option ℕ) (name : Bytes) : Option ℕ :=
  if name.all (· = 46) then dots.map (· + name.length) else none

lemma dotsAfter_cons (dots : Option ℕ) (c : UInt8) (name : Bytes) :
    dotsAfter dots (c :: name) = dotsAfter (if c = 46 then dots.map (· + 1) else none) name := by
  unfold dotsAfter
  by_cases hc : c = 46
  · subst hc
    simp only [List.all_cons, decide_true, Bool.true_and, if_true, List.length_cons]
    split
    · cases dots with
      | none => rfl
      | some n => exact congrArg some (by simp; omega)
    · rfl
  · simp [hc]

lemma dotsAfter_zero_iff (name : Bytes) :
    dotsAfter (some 0) name = some 1 ∨ dotsAfter (some 0) name = some 2 ↔ IsDotName name := by
  have hall : name.all (· = 46) ↔ ∀ c ∈ name, c = 46 := by simp
  rw [isDotName_iff, dotsAfter, ← hall]
  by_cases h : name.all (· = 46)
  · rw [if_pos h, and_iff_right h]
    simp
  · rw [if_neg h]
    exact iff_of_false (by simp) fun h' => h h'.1

lemma dotScan_iff (dots : Option ℕ) (s name : Bytes) (rest : List Bytes)
    (hs : components s = name :: rest) :
    dotScan dots s ↔ (dotsAfter dots name = some 1 ∨ dotsAfter dots name = some 2) ∨
      ∃ c ∈ rest, IsDotName c := by
  induction s generalizing dots name rest with
  | nil =>
    obtain ⟨rfl, rfl⟩ := List.cons.inj hs
    simp [dotScan, dotsAfter]
  | cons c s ih =>
    obtain ⟨next, others, hnext⟩ := List.exists_cons_of_ne_nil (List.splitOn_ne_nil 47 s)
    rw [components, List.splitOn_cons_eq_if_modifyHead, hnext] at hs
    rw [dotScan]
    by_cases hc : c = 47
    · rw [if_pos (by simpa using hc)] at hs
      obtain ⟨rfl, rfl⟩ := List.cons.inj hs
      rw [if_pos hc, Bool.or_eq_true, Bool.or_eq_true, decide_eq_true_eq, decide_eq_true_eq,
        ih (some 0) next others hnext, dotsAfter_zero_iff]
      simp [dotsAfter]
    · rw [if_neg (by simpa using hc), List.modifyHead_cons] at hs
      obtain ⟨rfl, rfl⟩ := List.cons.inj hs
      rw [if_neg hc, dotsAfter_cons, ih _ next others hnext]

/-- From the start of a path the scan tells whether a component is a dot name. -/
lemma dotScan_zero_iff (s : Bytes) :
    dotScan (some 0) s ↔ ∃ c ∈ components s, IsDotName c := by
  obtain ⟨name, rest, hs⟩ := List.exists_cons_of_ne_nil (List.splitOn_ne_nil 47 s)
  rw [dotScan_iff _ _ _ _ hs, dotsAfter_zero_iff, components, hs]
  simp

/-! ### The texts of `strftime` -/

/-- In the C locale the text of a specification has in each part between its slashes a character
that is no dot, and a specification does not extend over a slash. -/
structure PrintsNames (conversion : Conversion) : Prop where
  no_slash : ∀ s : Bytes, 47 ∉ s.take (conversion.spec s).1
  names : ∀ s, ∀ part ∈ components (conversion.spec s).2, ∃ c ∈ part, c ≠ 46

lemma dotScan_none {c : UInt8} (hc : c ≠ 47) (s : Bytes) :
    dotScan none (c :: s) = dotScan none s := by
  rw [dotScan, if_neg hc]
  split <;> rfl

/-- Behind such a text the component has a character that is no dot, and no component of the text
is a dot name. -/
lemma dotScan_text {dots : Option ℕ} {text name : Bytes} {rest : List Bytes}
    (htext : components text = name :: rest) (hname : dots = none ∨ ∃ c ∈ name, c ≠ 46)
    (hrest : ∀ part ∈ rest, ∃ c ∈ part, c ≠ 46) (s : Bytes) :
    dotScan dots (text ++ s) = dotScan none s := by
  induction text generalizing dots name rest with
  | nil =>
    obtain ⟨rfl, rfl⟩ := List.cons.inj htext
    obtain rfl : dots = none := hname.resolve_right (by simp)
    rfl
  | cons c text ih =>
    obtain ⟨next, others, hnext⟩ := List.exists_cons_of_ne_nil (List.splitOn_ne_nil 47 text)
    rw [components, List.splitOn_cons_eq_if_modifyHead, hnext] at htext
    rw [List.cons_append, dotScan]
    by_cases hc : c = 47
    · rw [if_pos (by simpa using hc)] at htext
      obtain ⟨rfl, rfl⟩ := List.cons.inj htext
      obtain rfl : dots = none := hname.resolve_right (by simp)
      obtain ⟨hnext', hothers⟩ := List.forall_mem_cons.mp hrest
      rw [if_pos hc, ih hnext (Or.inr hnext') hothers]
      rfl
    · rw [if_neg (by simpa using hc), List.modifyHead_cons] at htext
      obtain ⟨rfl, rfl⟩ := List.cons.inj htext
      rw [if_neg hc]
      refine ih hnext ?_ hrest
      by_cases hdot : c = 46
      · subst hdot
        rcases hname with rfl | ⟨d, hd, hne⟩
        · exact Or.inl rfl
        · exact Or.inr ⟨d, (List.mem_cons.mp hd).resolve_left hne, hne⟩
      · exact Or.inl (if_neg hdot)

/-- What `strftime` prints has a dot name among its components exactly if the format has. -/
lemma dotScan_strftimeFrom {conversion : Conversion} (hprints : PrintsNames conversion)
    (s : List (UInt8 × Bool)) (skip : ℕ) :
    (∀ dots, dotScan dots ((strftimeFrom conversion s 0).map Prod.fst) =
        dotScan dots (s.map Prod.fst)) ∧
      (47 ∉ (s.map Prod.fst).take skip →
        dotScan none ((strftimeFrom conversion s skip).map Prod.fst) =
          dotScan none (s.map Prod.fst)) := by
  induction s generalizing skip with
  | nil => exact ⟨fun _ => rfl, fun _ => rfl⟩
  | cons x s ih =>
    obtain ⟨c, mark⟩ := x
    have hzero : ∀ dots, dotScan dots ((strftimeFrom conversion ((c, mark) :: s) 0).map Prod.fst) =
        dotScan dots (((c, mark) :: s).map Prod.fst) := by
      intro dots
      rw [strftimeFrom]
      by_cases hc : c = 37
      · obtain ⟨name, rest, htext⟩ := List.exists_cons_of_ne_nil
          (List.splitOn_ne_nil 47 (conversion.spec (s.map Prod.fst)).2)
        have hnames := hprints.names (s.map Prod.fst)
        rw [components, htext, List.forall_mem_cons] at hnames
        rw [if_pos hc, List.map_append, map_fst_unmarked,
          dotScan_text htext (Or.inr hnames.1) hnames.2,
          (ih _).2 (hprints.no_slash (s.map Prod.fst)), hc]
        rfl
      · rw [if_neg hc]
        show (if c = 47 then _ || dotScan (some 0) ((strftimeFrom conversion s 0).map Prod.fst)
          else dotScan _ ((strftimeFrom conversion s 0).map Prod.fst)) = _
        rw [(ih 0).1, (ih 0).1]
        rfl
    refine ⟨hzero, fun hslash => ?_⟩
    cases skip with
    | zero => exact hzero none
    | succ skip =>
      rw [List.map_cons, List.take_succ_cons, List.mem_cons, not_or] at hslash
      rw [List.map_cons, dotScan_none (Ne.symm hslash.1)]
      exact (ih skip).2 hslash.2

/-- The components of the path that is opened are as good as those of the string for `strftime`. -/
lemma exists_isDotName_strftime_iff {conversion : Conversion} (hprints : PrintsNames conversion)
    (s : Bytes) : (∃ c ∈ components (strftime conversion s), IsDotName c) ↔
      ∃ c ∈ components s, IsDotName c := by
  have hscan := (dotScan_strftimeFrom hprints (s.map fun c => (c, false)) 0).1 (some 0)
  rw [map_fst_unmarked, ← strftime] at hscan
  rw [← dotScan_zero_iff, hscan, dotScan_zero_iff]

/-! ### The pieces of a component -/

namespace Piece

/-- The number of bytes of a piece. -/
def length : Piece → ℕ
  | .char _ => 1
  | .string v => v.length

/-- The bytes of the piece become dots. -/
def OnlyDots : Piece → Prop
  | .char c => c = 46
  | .string v => ∀ b ∈ v, b &&& 0x7f = 46

/-- The piece is a string of the packet. -/
def IsString : Piece → Prop
  | .char _ => False
  | .string _ => True

lemma length_bytes (p : Piece) : p.bytes.length = p.length := by
  cases p with
  | char c => rfl
  | string v => exact length_sanitize v

/-- The table has a dot for a dot only. -/
lemma asciisan_eq_dot_iff : ∀ n : Fin 128, asciisan.getD n 0 = 46 ↔ n = 46 := by decide +kernel

lemma onlyDots_iff (p : Piece) : p.OnlyDots ↔ ∀ c ∈ p.bytes, c = 46 := by
  cases p with
  | char c => simp [OnlyDots, bytes]
  | string v =>
    show (∀ b ∈ v, b &&& 0x7f = 46) ↔ ∀ c ∈ sanitize v, c = 46
    rw [sanitize, List.forall_mem_map]
    refine forall₂_congr fun b _ => ?_
    have hlt : (b &&& 0x7f).toNat < 128 := by
      rw [UInt8.toNat_and]
      exact Nat.and_le_right.trans_lt (by decide)
    rw [asciisan_eq_dot_iff ⟨_, hlt⟩, ← UInt8.toNat_inj, Fin.ext_iff]
    rfl

end Piece

/-- The pieces of each component. -/
def pieceRuns (ps : List Piece) : List (List Piece) := ps.splitOn (.char 47)

/-- The pieces make a dot name: they are dots, or strings of dots, one or two dots in all. -/
def IsDotRun (run : List Piece) : Prop :=
  (∀ p ∈ run, p.OnlyDots) ∧ ((run.map Piece.length).sum = 1 ∨ (run.map Piece.length).sum = 2)

lemma isDotName_flatMap_iff (run : List Piece) :
    IsDotName (run.flatMap Piece.bytes) ↔ IsDotRun run := by
  have hlen : (run.flatMap Piece.bytes).length = (run.map Piece.length).sum := by
    rw [List.length_flatMap]
    exact congrArg List.sum (List.map_congr_left fun p _ => p.length_bytes)
  rw [isDotName_iff, IsDotRun, hlen]
  refine and_congr_left' ?_
  simp only [Piece.onlyDots_iff, List.mem_flatMap]
  exact ⟨fun h p hp c hc => h c ⟨p, hp, hc⟩, fun h c ⟨p, hp, hc⟩ => h p hp c hc⟩

/-- The strings of the packet do not divide components. -/
lemma components_flatMap (ps : List Piece) :
    components (ps.flatMap Piece.bytes) = (pieceRuns ps).map (List.flatMap Piece.bytes) := by
  induction ps with
  | nil => rfl
  | cons p ps ih =>
    obtain ⟨run, runs, hruns⟩ := List.exists_cons_of_ne_nil (List.splitOn_ne_nil (.char 47) ps)
    rw [components, pieceRuns, hruns, List.map_cons] at ih
    rw [List.flatMap_cons, pieceRuns, components]
    cases p with
    | char c =>
      rw [Piece.bytes, List.singleton_append, List.splitOn_cons_eq_if_modifyHead,
        List.splitOn_cons_eq_if_modifyHead, ih, hruns]
      by_cases hc : c = 47
      · rw [if_pos (by simpa using hc), if_pos (by simpa using hc)]
        rfl
      · rw [if_neg (by simpa using hc), if_neg (by simpa using hc)]
        rfl
    | string v =>
      rw [Piece.bytes, splitOn_append_of_not_mem (not_mem_sanitize_slash v), ih,
        List.splitOn_cons_eq_if_modifyHead, if_neg (by simp), hruns]
      rfl

section Template

variable {caller called callid : Bytes}

/-- The components of a template are those of its pieces. -/
lemma MadeOf.splitOn {t : Bytes} {ps : List Piece} (h : MadeOf caller called callid t ps) :
    List.Forall₂ (MadeOf caller called callid) (components t) (pieceRuns ps) := by
  induction h with
  | nil => exact .cons .nil .nil
  | @char t ps c _ ih =>
    obtain ⟨name, rest, ht⟩ := List.exists_cons_of_ne_nil (List.splitOn_ne_nil 47 t)
    obtain ⟨run, runs, hps⟩ := List.exists_cons_of_ne_nil (List.splitOn_ne_nil (.char 47) ps)
    rw [components, pieceRuns, ht, hps] at ih
    rw [components, pieceRuns, List.splitOn_cons_eq_if_modifyHead,
      List.splitOn_cons_eq_if_modifyHead, ht, hps]
    by_cases hc : c = 47
    · rw [if_pos (by simpa using hc), if_pos (by simpa using hc)]
      exact .cons .nil ih
    · rw [if_neg (by simpa using hc), if_neg (by simpa using hc)]
      obtain ⟨hhead, htail⟩ := List.forall₂_cons.mp ih
      exact .cons (.char c hhead) htail
  | @code t ps c v hv _ ih =>
    obtain ⟨name, rest, ht⟩ := List.exists_cons_of_ne_nil (List.splitOn_ne_nil 47 t)
    obtain ⟨run, runs, hps⟩ := List.exists_cons_of_ne_nil (List.splitOn_ne_nil (.char 47) ps)
    have hcode : (47 : UInt8) ∉ [37, c] := by
      simpa using fun h : 47 = c => (code_ne hv).2 h.symm
    rw [components, pieceRuns, ht, hps] at ih
    rw [components, pieceRuns, show (37 :: c :: t) = [37, c] ++ t from rfl,
      splitOn_append_of_not_mem hcode, List.splitOn_cons_eq_if_modifyHead, if_neg (by simp), ht,
      hps]
    obtain ⟨hhead, htail⟩ := List.forall₂_cons.mp ih
    exact .cons (.code hv hhead) htail

/-- Without a string the pieces are the template's characters. -/
lemma MadeOf.flatMap_eq {t : Bytes} {ps : List Piece} (h : MadeOf caller called callid t ps)
    (hno : ∀ p ∈ ps, ¬p.IsString) : ps.flatMap Piece.bytes = t := by
  induction h with
  | nil => rfl
  | char c _ ih =>
    rw [List.flatMap_cons, ih fun p hp => hno p (List.mem_cons_of_mem _ hp)]
    rfl
  | code hv _ _ => exact absurd trivial (hno _ List.mem_cons_self)

/-- A component without a string of the packet is one of the template. -/
lemma MadeOf.mem_components {t : Bytes} {ps run : List Piece}
    (h : MadeOf caller called callid t ps) (hrun : run ∈ pieceRuns ps)
    (hno : ∀ p ∈ run, ¬p.IsString) : run.flatMap Piece.bytes ∈ components t := by
  have hall := h.splitOn
  generalize components t = names, pieceRuns ps = runs at hall hrun
  induction hall with
  | nil => exact absurd hrun (by simp)
  | cons hhead _ ih =>
    rcases List.mem_cons.mp hrun with rfl | hrun
    · rw [hhead.flatMap_eq hno]
      exact List.mem_cons_self
    · exact List.mem_cons_of_mem _ (ih hrun)

end Template

/-- What is given to `strftime` for the path of a call. -/
def pathFormat (o : Options) (msg : SipMessage) : Bytes :=
  expandDirTemplate o.optFntemplate (cstr msg.caller.toBytes) (cstr msg.called.toBytes)
    msg.callidStr

/-- **The components of a file's path.**  For a template without the components `.` and `..`, the
path of a file has none of them if and only if the pieces of no component with a string of the
packet are all dots, one or two in all.  Here `strftime` has to print the format of this path, which
it does if the path and its terminator fit the 1024 bytes it is given. -/
theorem path_components_iff {o : Options} {host : Host} {conversion : Conversion}
    {msg : SipMessage} {t : ℤ}
    (hhost : host.strftime (pathFormat o msg) t = strftime conversion (pathFormat o msg))
    (hprints : PrintsNames conversion) (hnul : 0 ∉ o.optFntemplate)
    (htemplate : ∀ c ∈ components o.optFntemplate, ¬IsDotName c) :
    (∀ c ∈ components (fileName o host msg t), ¬IsDotName c) ↔
      ∀ run ∈ pieceRuns (expandPieces (cstr msg.caller.toBytes) (cstr msg.called.toBytes)
        msg.callidStr o.optFntemplate (UInt64.ofNat (o.optFntemplate.length + 256))),
        (∃ p ∈ run, p.IsString) → ¬IsDotRun run := by
  have hfree : ∀ c ∈ o.optFntemplate, c ≠ 0 := fun c hc h => hnul (h ▸ hc)
  have hpath : fileName o host msg t = strftime conversion ((expandPieces
      (cstr msg.caller.toBytes) (cstr msg.called.toBytes) msg.callidStr o.optFntemplate
      (UInt64.ofNat (o.optFntemplate.length + 256))).flatMap Piece.bytes) := by
    rw [fileName, ← pathFormat, hhost, flatMap_expandPieces, pathFormat, expandDirTemplate,
      cstr_eq_self (strftime_nul_free (expandFrom_nul_free hfree _))]
  have hdots := exists_isDotName_strftime_iff hprints ((expandPieces
      (cstr msg.caller.toBytes) (cstr msg.called.toBytes) msg.callidStr o.optFntemplate
      (UInt64.ofNat (o.optFntemplate.length + 256))).flatMap Piece.bytes)
  rw [← hpath, components_flatMap] at hdots
  rw [← not_iff_not]
  push Not
  rw [hdots]
  constructor
  · rintro ⟨c, hc, hname⟩
    obtain ⟨run, hrun, rfl⟩ := List.mem_map.mp hc
    refine ⟨run, hrun, ?_, (isDotName_flatMap_iff run).mp hname⟩
    by_contra hno
    push Not at hno
    exact htemplate _ ((madeOf_expandPieces _ _).mem_components hrun hno) hname
  · rintro ⟨run, hrun, -, hdot⟩
    exact ⟨_, List.mem_map_of_mem hrun, (isDotName_flatMap_iff run).mpr hdot⟩

/-! ### A user who is called `..` -/

/-- A percent sign that starts no specification is copied. -/
def Conversion.percent : Conversion := ⟨fun _ => (0, [37]), by simp⟩

lemma printsNames_percent : PrintsNames Conversion.percent where
  no_slash s := by simp [Conversion.percent]
  names s part hpart := by
    obtain rfl : part = [37] := List.mem_singleton.mp hpart
    exact ⟨37, List.mem_cons_self, by decide⟩

/-- A host with a `strftime` for formats without specifications. -/
def Host.percent : Host where
  dumpOpen := Host.numbering.dumpOpen
  strftime format _ := PcapSipDump.strftime Conversion.percent format
  dumpOpen_fresh := Host.numbering.dumpOpen_fresh

/-- A directory for each caller. -/
def Options.byCaller : Options := { Options.raw with optFntemplate := ascii "/cap/%f/%i.pcap" }

/-- An INVITE from `sip:..@h`. -/
def parentInvite : Packet :=
  Packet.captured 0 (ipv4Udp 1 0 [10, 0, 0, 1] [10, 0, 0, 2] 5060 5060
    (ascii "INVITE sip:b@h SIP/2.0\r\nFrom: <sip:..@h>\r\nTo: <sip:b@h>\r\nCall-ID: 1\r\n"))

/-- The path of the file has the component `..`, which has a string of two dots. -/
theorem path_components_byCaller :
    ¬∀ c ∈ components (fileName Options.byCaller Host.percent
      (readSip Options.byCaller parentInvite.terminate 28 (ascii "INVITE")) 0), ¬IsDotName c := by
  rw [@path_components_iff Options.byCaller Host.percent Conversion.percent _ 0 rfl
    printsNames_percent (by decide +kernel) (by decide +kernel)]
  intro h
  refine h [.string (ascii "..")] (by decide +kernel) ⟨_, List.mem_cons_self, trivial⟩ ⟨?_, ?_⟩
  · intro p hp
    obtain rfl := List.mem_singleton.mp hp
    show ∀ b ∈ [46, 46], b &&& 0x7f = 46
    exact List.forall_mem_cons.mpr ⟨rfl, List.forall_mem_singleton.mpr rfl⟩
  · exact Or.inr rfl

/-- The file of the call is `/cap/../1.pcap`. -/
theorem path_components_false :
    ¬∀ (o : Options) (host : Host) (conversion : ℤ → Conversion),
      (∀ format t, host.strftime format t = strftime (conversion t) format) →
      (∀ t, PrintsNames (conversion t)) → 0 ∉ o.optFntemplate →
      (∀ c ∈ components o.optFntemplate, ¬IsDotName c) →
      ∀ (p : Packet) (data : ℕ) (method : Bytes) (t : ℤ),
        ∀ c ∈ components (fileName o host (readSip o p.terminate data method) t), ¬IsDotName c := by
  intro h
  have hname := h Options.byCaller Host.percent (fun _ => Conversion.percent) (fun _ _ => rfl)
    (fun _ => printsNames_percent) (by decide +kernel) (by decide +kernel) parentInvite 28
    (ascii "INVITE") 0 (ascii "..") (by decide +kernel)
  exact hname (by decide)

end PcapSipDump
