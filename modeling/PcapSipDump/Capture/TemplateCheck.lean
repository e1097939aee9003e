import PcapSipDump.Capture.CommandLine
import PcapSipDump.Capture.MkdirP
import PcapSipDump.Capture.Strftime
import PcapSipDump.Capture.Template

/-!
# The check of the file name template

`opts_sanity_check_d`, which expands the template without any call.  A template that names a
directory gets a default file name, in a block whose size is that of the *expansion* and some more;
the template itself may be longer, since its codes for the call expand to nothing
(`sanity_check_in_bounds_iff`).  After a check without an error the directory exists for which it
has been made, unless a file has its name: `mkdir_p` takes that for the directory
(`sanity_check_directory`).
-/

namespace PcapSipDump

open Lib Lib.CString

/-! ### The check -/

/-- What the check asks of the file system. -/
structure Disk where
  fs : FileSystem
  /-- `fopen(path, "a")` succeeds. -/
  appendable : Bytes → Bool

/-- The errors of the check, after each of which the program ends with the status 2. -/
inductive TemplateError where
  | fileExists
  | createFile (path : Bytes)
  | neither
  | createDirectory (dir : Bytes)
deriving DecidableEq

/-- The message for a template, apart from that of `perror`. -/
def TemplateError.message (template : Bytes) : TemplateError → Bytes
  | fileExists =>
      ascii "Bad option '-d " ++ template ++
        ascii "': File exists (expecting directory name or filename template)"
  | createFile _ => ascii "Can't create file for '-d " ++ template ++ ascii "': "
  | neither =>
      ascii "Bad option '-d " ++ template ++ ascii "': Neither directory nor filename template"
  | createDirectory _ => ascii "Can't create directory for '-d " ++ template ++ ascii "': "

/-- The file that is made in a directory, and removed again. -/
def tmpName : Bytes := ascii "/tmp-siJNlSdiugQ3iyjaPNW"

/-- The file name that a directory gets. -/
def defaultName : Bytes := ascii "/%Y%m%d/%H/%Y%m%d-%H%M%S-%f-%t-%i.pcap"

variable (libbsd : Bool) (conversion : Conversion) (disk : Disk) (template : Bytes)

/-- The template without a call, at the time of the check. -/
def bareExpansion : Bytes := cstr (strftime conversion (expandDirTemplate template [] [] []))

/-- `unlink(path)` for a file. -/
def FileSystem.unlink (fs : FileSystem) (path : Bytes) : FileSystem :=
  match fs.resolve path with
  | some d => { fs with tree := fs.tree.unlink d }
  | none => fs

/-- `opts_sanity_check_d`: the template to go on with or an error, and the file system after it,
unless it leaves an array. -/
def optsSanityCheckD : Option (Except TemplateError Bytes × FileSystem) :=
  let s := bareExpansion conversion template
  -- `strftime` leaves an array undefined that is too small
  if 2048 ≤ s.length then none
  else if disk.fs.stat s then
    if disk.fs.isDir s then
      (strcat 2048 s tmpName).bind fun path =>
        if disk.appendable path then
          (strcat (path.length + 128) template defaultName).map fun template' =>
            (.ok template', disk.fs.unlink path)
        else some (.error (.createFile path), disk.fs)
    else some (.error .fileExists, disk.fs)
  else if 37 ∉ template ∨ 47 ∉ s then some (.error .neither, disk.fs)
  else
    (mkdirP libbsd disk.fs (dirname s)).map fun r =>
      (if r.1 then .ok template else .error (.createDirectory (dirname s)), r.2)

/-! ### The arrays -/

lemma length_names : tmpName.length = 24 ∧ defaultName.length = 38 := by decide

variable {libbsd conversion disk template}

lemma FileSystem.stat_of_isDir {fs : FileSystem} {path : Bytes} (h : fs.isDir path) :
    fs.stat path :=
  Bool.or_eq_true_iff.mpr (Or.inl h)

/-- The check of a template that names a directory. -/
lemma sanity_check_of_isDir (hdir : disk.fs.isDir (bareExpansion conversion template)) :
    optsSanityCheckD libbsd conversion disk template =
      if (bareExpansion conversion template).length < 2024 then
        if disk.appendable (bareExpansion conversion template ++ tmpName) then
          if template.length < (bareExpansion conversion template).length + 114 then
            some (.ok (template ++ defaultName),
              disk.fs.unlink (bareExpansion conversion template ++ tmpName))
          else none
        else some (.error (.createFile (bareExpansion conversion template ++ tmpName)), disk.fs)
      else none := by
  obtain ⟨htmp, hname⟩ := length_names
  rw [optsSanityCheckD]
  simp only [if_pos (FileSystem.stat_of_isDir hdir), if_pos hdir]
  by_cases hlen : (bareExpansion conversion template).length < 2024
  · have hpath : strcat 2048 (bareExpansion conversion template) tmpName =
        some (bareExpansion conversion template ++ tmpName) := if_pos (by omega)
    rw [if_neg (by omega), if_pos hlen, hpath, Option.bind_some]
    split
    · rw [strcat, List.length_append, htmp, hname]
      by_cases hfit : template.length < (bareExpansion conversion template).length + 114
      · rw [if_pos hfit, if_pos (by omega)]
        rfl
      · rw [if_neg hfit, if_neg (by omega)]
        rfl
    · rfl
  · rw [if_neg hlen]
    split
    · rfl
    · rw [strcat, if_neg (by omega)]
      rfl

/-- The check makes the directory of a template with a code and a slash. -/
def MakesDirectory (conversion : Conversion) (fs : FileSystem) (template : Bytes) : Prop :=
  ¬fs.stat (bareExpansion conversion template) ∧ 37 ∈ template ∧
    47 ∈ bareExpansion conversion template

/-- The check of any other template. -/
lemma sanity_check_of_not_isDir (hlen : (bareExpansion conversion template).length < 2048)
    (hdir : ¬disk.fs.isDir (bareExpansion conversion template))
    (hmakes : ¬MakesDirectory conversion disk.fs template) :
    ∃ e, optsSanityCheckD libbsd conversion disk template = some (.error e, disk.fs) := by
  rw [optsSanityCheckD]
  simp only [if_neg (not_le.mpr hlen), if_neg hdir]
  by_cases hstat : disk.fs.stat (bareExpansion conversion template)
  · exact ⟨_, if_pos hstat⟩
  · refine ⟨_, (if_neg hstat).trans (if_pos ?_)⟩
    by_contra hno
    rw [not_or, not_not, not_not] at hno
    exact hmakes ⟨hstat, hno⟩

/-- The check of a template whose directory is made. -/
lemma sanity_check_of_makes (hlen : (bareExpansion conversion template).length < 2048)
    (hmakes : MakesDirectory conversion disk.fs template) :
    optsSanityCheckD libbsd conversion disk template =
      (mkdirP libbsd disk.fs (dirname (bareExpansion conversion template))).map fun r =>
        (if r.1 then .ok template
          else .error (.createDirectory (dirname (bareExpansion conversion template))), r.2) := by
  obtain ⟨hstat, hcode, hslash⟩ := hmakes
  rw [optsSanityCheckD]
  simp only [if_neg (not_le.mpr hlen), if_neg hstat]
  exact if_neg (not_or.mpr ⟨not_not.mpr hcode, not_not.mpr hslash⟩)

/-- The codes for the call, as `expand_dir_template` reads them. -/
def callCodes : Bytes → ℕ
  | c0 :: c1 :: rest =>
      if c0 = 37 ∧ (templateString [] [] [] c1).isSome then callCodes rest + 1
      else callCodes (c1 :: rest)
  | _ => 0

/-- A code for the call expands to nothing. -/
lemma length_expandFrom_nil (t : Bytes) {room : UInt64} (hroom : t.length < room.toNat) :
    (expandFrom [] [] [] t room).length + 2 * callCodes t = t.length := by
  have hstring : ∀ c v, templateString [] [] [] c = some v → v = [] := by
    intro c v hv
    unfold templateString at hv
    split_ifs at hv <;> exact (Option.some.inj hv).symm
  have hpos : ∀ {room : UInt64}, 0 < room.toNat → UInt64.ofNat 0 < room := by
    intro room h
    rw [UInt64.lt_iff_toNat_lt]
    exact h
  have hpred : ∀ {room : UInt64} {n : ℕ}, n + 1 < room.toNat → n < (room - 1).toNat := by
    intro room n h
    have hone : 1 ≤ room := by
      rw [UInt64.le_iff_toNat_le]
      exact (by omega : 1 ≤ room.toNat)
    rw [UInt64.toNat_sub_of_le _ _ hone]
    exact Nat.lt_sub_of_add_lt h
  fun_induction expandFrom [] [] [] t room with
  | case1 room => rfl
  | case2 c room => rfl
  | case3 c0 c1 rest room v hv hfits ih =>
    obtain rfl := hstring c1 v hv
    rw [List.length_cons, List.length_cons] at hroom
    have hnone : room - UInt64.ofNat ([] : Bytes).length = room := UInt64.sub_zero room
    rw [hnone] at ih ⊢
    have ih' := ih (by omega)
    rw [callCodes, if_pos ⟨hfits.1, by rw [hv]; rfl⟩, List.length_append, length_sanitize,
      List.length_nil, List.length_cons, List.length_cons]
    omega
  | case4 c0 c1 rest room v hv hfits ih =>
    obtain rfl := hstring c1 v hv
    have ih' := ih (hpred hroom)
    have hc : ¬(c0 = 37 ∧ (templateString [] [] [] c1).isSome) := by
      rintro ⟨hc, -⟩
      exact hfits ⟨hc, hpos (by omega)⟩
    rw [callCodes, if_neg hc, List.length_cons, List.length_cons]
    omega
  | case5 c0 c1 rest room hv ih =>
    have ih' := ih (hpred hroom)
    rw [callCodes, if_neg (by rw [hv]; simp), List.length_cons, List.length_cons]
    omega

lemma nul_free_dirname {path : Bytes} (h : ∀ c ∈ path, c ≠ 0) : ∀ c ∈ dirname path, c ≠ 0 := by
  have hdrop : ∀ c ∈ (((path.reverse.dropWhile (· = 47)).dropWhile (· ≠ 47)).dropWhile (· = 47)),
      c ≠ 0 := by
    intro c hc
    refine h c (List.mem_reverse.mp ?_)
    exact (List.dropWhile_sublist _).mem
      ((List.dropWhile_sublist _).mem ((List.dropWhile_sublist _).mem hc))
  rw [dirname]
  split
  · split
    · exact List.forall_mem_singleton.mpr (by decide)
    · exact List.forall_mem_singleton.mpr (by decide)
  · rename_i dir _
    exact fun c hc => hdrop c (List.mem_reverse.mp hc)

/-- **The arrays of the check.**  It stays inside them exactly when the expansion fits, and where
this names a directory, also with the name of the file that is made in it, and the template is less
than 114 characters longer than the expansion: two for each code of the call, and what `strftime`
takes away.  Where a directory is made whose name has 256 characters or more, `strlcpy` has to be
that of libbsd, or the directory exists. -/
theorem sanity_check_in_bounds_iff (libbsd : Bool) (conversion : Conversion) (disk : Disk)
    (template : CStr) :
    let expanded := expandDirTemplate template.bytes [] [] []
    let s := bareExpansion conversion template.bytes
    optsSanityCheckD libbsd conversion disk template.bytes ≠ none ↔
      s.length < 2048 ∧
        (disk.fs.isDir s → s.length < 2024 ∧ (disk.appendable (s ++ tmpName) →
          2 * callCodes template.bytes + expanded.length < s.length + 114)) ∧
        (MakesDirectory conversion disk.fs template.bytes →
          libbsd = true ∨ (dirname s).length < 256 ∨ disk.fs.stat (dirname s)) := by
  intro expanded s
  have hlength : expanded.length + 2 * callCodes template.bytes = template.bytes.length := by
    have hlt := template.length_lt
    refine length_expandFrom_nil _ ?_
    rw [UInt64.toNat_ofNat_of_lt' (show template.bytes.length + 256 < UInt64.size by
      rw [show UInt64.size = 2 ^ 64 from rfl]; omega)]
    omega
  by_cases hlong : s.length < 2048
  swap
  · refine iff_of_false (fun h => h ?_) fun h => hlong h.1
    rw [optsSanityCheckD]
    exact if_pos (not_lt.mp hlong)
  by_cases hdir : disk.fs.isDir s
  · have hmakes : ¬MakesDirectory conversion disk.fs template.bytes :=
      fun h => h.1 (FileSystem.stat_of_isDir hdir)
    rw [sanity_check_of_isDir hdir]
    by_cases hlen : s.length < 2024
    · rw [if_pos hlen]
      by_cases happend : disk.appendable (s ++ tmpName)
      · rw [if_pos happend]
        by_cases hfit : template.bytes.length < s.length + 114
        · rw [if_pos hfit]
          exact iff_of_true (Option.some_ne_none _)
            ⟨hlong, fun _ => ⟨hlen, fun _ => by omega⟩, fun h => absurd h hmakes⟩
        · rw [if_neg hfit]
          refine iff_of_false (fun h => h rfl) fun h => hfit ?_
          have hroom := (h.2.1 hdir).2 happend
          omega
      · rw [if_neg happend]
        exact iff_of_true (Option.some_ne_none _)
          ⟨hlong, fun _ => ⟨hlen, fun h => absurd h happend⟩, fun h => absurd h hmakes⟩
    · rw [if_neg hlen]
      exact iff_of_false (fun h => h rfl) fun h => hlen (h.2.1 hdir).1
  by_cases hmakes : MakesDirectory conversion disk.fs template.bytes
  · have hnul : ∀ c ∈ dirname s, c ≠ 0 :=
      nul_free_dirname fun c hc => by simpa using List.mem_takeWhile_imp hc
    rw [sanity_check_of_makes hlong hmakes, Ne, Option.map_eq_none_iff, ← Ne,
      mkdirP_ne_none_iff hnul]
    exact ⟨fun h => ⟨hlong, fun hd => absurd hd hdir, fun _ => h⟩, fun h => h.2.2 hmakes⟩
  · obtain ⟨e, he⟩ := @sanity_check_of_not_isDir libbsd _ _ _ hlong hdir hmakes
    rw [he]
    exact iff_of_true (Option.some_ne_none _)
      ⟨hlong, fun hd => absurd hd hdir, fun h => absurd h hmakes⟩

/-! ### The directory -/

namespace FileSystem

variable {fs : FileSystem} {path : Bytes}

lemma isDir_iff : fs.isDir path ↔ ∃ d, fs.resolve path = some d ∧ fs.tree.has d := by
  rw [isDir, Option.any_eq_true]

lemma mkdir_of_resolve {d : List Bytes} (h : fs.resolve path = some d) :
    (fs.mkdir path).1 = (fs.tree.mkdir d).1 ∧ (fs.mkdir path).2.tree = (fs.tree.mkdir d).2 := by
  rw [mkdir, h]
  exact ⟨rfl, rfl⟩

lemma resolve_mkdir (path' : Bytes) : (fs.mkdir path).2.resolve path' = fs.resolve path' := by
  have hcwd : (fs.mkdir path).2.cwd = fs.cwd := by
    rw [mkdir]
    split <;> rfl
  unfold resolve
  rw [hcwd]

/-- Directories stay. -/
lemma isDir_mkdir_of_isDir {path' : Bytes} (h : fs.isDir path') :
    (fs.mkdir path).2.isDir path' := by
  obtain ⟨d', hd', hhas⟩ := isDir_iff.mp h
  refine isDir_iff.mpr ⟨d', (resolve_mkdir path').trans hd', ?_⟩
  rcases hd : fs.resolve path with _ | d
  · rw [mkdir, hd]
    exact hhas
  · rw [(mkdir_of_resolve hd).2]
    exact fs.tree.has_of_mkdir hhas

/-- What has been made is there. -/
lemma isDir_of_mkdir (h : (fs.mkdir path).1) : (fs.mkdir path).2.isDir path := by
  rcases hd : fs.resolve path with _ | d
  · rw [mkdir, hd] at h
    cases h
  · obtain ⟨hfst, htree⟩ := mkdir_of_resolve hd
    refine isDir_iff.mpr ⟨d, (resolve_mkdir path).trans hd, ?_⟩
    rw [htree]
    exact fs.tree.has_of_mkdir_fst (hfst ▸ h)

/-- The files stay as they are. -/
lemma isFile_mkdir (path' : Bytes) : (fs.mkdir path).2.isFile path' = fs.isFile path' := by
  have hfiles : (fs.mkdir path).2.tree.isFile = fs.tree.isFile := by
    rcases hd : fs.resolve path with _ | d
    · rw [mkdir, hd]
    · rw [(mkdir_of_resolve hd).2, fs.tree.isFile_mkdir]
  rw [isFile, isFile, resolve_mkdir, hfiles]

/-- A file is no directory. -/
lemma not_isDir_of_isFile (h : fs.isFile path) : ¬fs.isDir path := by
  rw [isFile, Bool.and_eq_true, Option.any_eq_true] at h
  obtain ⟨-, d, hd, hfile⟩ := h
  intro hdir
  obtain ⟨d', hd', hhas⟩ := isDir_iff.mp hdir
  obtain rfl := Option.some.inj (hd.symm.trans hd')
  rw [fs.tree.not_both d hfile] at hhas
  exact Bool.false_ne_true hhas

lemma isDir_unlink (path' : Bytes) : (fs.unlink path).isDir path' = fs.isDir path' := by
  rw [unlink]
  split <;> rfl

end FileSystem

/-- `mkdir_p` keeps the directories and the files, and when it succeeds the path is that of a
directory, unless it is that of a file. -/
lemma mkdirP_spec (libbsd : Bool) (fs : FileSystem) (path : Bytes) :
    ∀ r ∈ mkdirP libbsd fs path, (∀ path', fs.isDir path' → r.2.isDir path') ∧
      (∀ path', r.2.isFile path' = fs.isFile path') ∧
        (r.1 → r.2.isDir path ∨ fs.isFile path) := by
  fun_induction mkdirP libbsd fs path with
  | case1 path hstat =>
    rintro r hr
    obtain rfl := Option.some.inj hr
    exact ⟨fun _ h => h, fun _ => rfl, fun _ => Bool.or_eq_true_iff.mp hstat⟩
  | case2 path hstat hcopy => exact fun r hr => absurd hr (Option.not_mem_none r)
  | case3 path hstat s hcopy p hlast ih =>
    rintro r hr
    obtain ⟨front, hfront, rfl⟩ := Option.map_eq_some_iff.mp hr
    obtain ⟨hdirs, hfiles, -⟩ := ih front hfront
    split
    · exact ⟨fun path' h => FileSystem.isDir_mkdir_of_isDir (hdirs path' h),
        fun path' => (FileSystem.isFile_mkdir path').trans (hfiles path'),
        fun h => Or.inl (FileSystem.isDir_of_mkdir h)⟩
    · rename_i hfailed
      exact ⟨hdirs, hfiles, fun h => absurd h hfailed⟩
  | case4 path hstat s hcopy hlast =>
    rintro r hr
    obtain rfl := Option.some.inj hr
    exact ⟨fun path' h => FileSystem.isDir_mkdir_of_isDir h, FileSystem.isFile_mkdir,
      fun h => Or.inl (FileSystem.isDir_of_mkdir h)⟩

/-- **The directory of the template.**  The check keeps the directories.  If it accepts a template,
this is either the name of a directory, and goes on with the default file name behind it, or a
template with a code and a slash, the directory of which is there after the check, unless there has
been a file of that name. -/
theorem sanity_check_directory {result : Except TemplateError Bytes} {fs' : FileSystem}
    (h : optsSanityCheckD libbsd conversion disk template = some (result, fs')) :
    (∀ path, disk.fs.isDir path → fs'.isDir path) ∧
      ∀ template', result = .ok template' →
        template' = template ++ defaultName ∧ fs'.isDir (bareExpansion conversion template) ∨
          template' = template ∧ 37 ∈ template ∧ 47 ∈ bareExpansion conversion template ∧
            (fs'.isDir (dirname (bareExpansion conversion template)) ↔
              ¬disk.fs.isFile (dirname (bareExpansion conversion template))) := by
  by_cases hlong : (bareExpansion conversion template).length < 2048
  swap
  · rw [optsSanityCheckD] at h
    cases (if_pos (not_lt.mp hlong)).symm.trans h
  by_cases hdir : disk.fs.isDir (bareExpansion conversion template)
  · rw [sanity_check_of_isDir hdir] at h
    split_ifs at h with hlen happend hfit
    · obtain ⟨rfl, rfl⟩ := Prod.mk.inj (Option.some.inj h)
      refine ⟨fun path hpath => (FileSystem.isDir_unlink path).trans hpath,
        fun template' ht => Or.inl ⟨(Except.ok.inj ht).symm, ?_⟩⟩
      exact (FileSystem.isDir_unlink _).trans hdir
    · obtain ⟨rfl, rfl⟩ := Prod.mk.inj (Option.some.inj h)
      exact ⟨fun _ hs => hs, by rintro _ ⟨⟩⟩
  by_cases hmakes : MakesDirectory conversion disk.fs template
  · rw [sanity_check_of_makes hlong hmakes] at h
    obtain ⟨r, hr, heq⟩ := Option.map_eq_some_iff.mp h
    obtain ⟨rfl, rfl⟩ := Prod.mk.inj heq
    obtain ⟨hdirs, hfiles, hmade⟩ := mkdirP_spec libbsd disk.fs _ r hr
    refine ⟨hdirs, fun template' ht => Or.inr ?_⟩
    split at ht
    · rename_i hok
      refine ⟨(Except.ok.inj ht).symm, hmakes.2.1, hmakes.2.2, fun hd hfile => ?_, fun hfile => ?_⟩
      · rw [← hfiles] at hfile
        exact FileSystem.not_isDir_of_isFile hfile hd
      · exact (hmade hok).resolve_right hfile
    · cases ht
  · obtain ⟨e, he⟩ := sanity_check_of_not_isDir hlong hdir hmakes
    rw [he] at h
    obtain ⟨rfl, rfl⟩ := Prod.mk.inj (Option.some.inj h)
    exact ⟨fun _ hs => hs, by rintro _ ⟨⟩⟩

/-- The root directory, where files can be made. -/
theorem sanity_check_directory_root :
    let conversion : Conversion := ⟨fun _ => (1, []), fun _ _ h => absurd h List.not_mem_nil⟩
    let disk : Disk := ⟨FileSystem.bare, fun _ => true⟩
    optsSanityCheckD true conversion disk (ascii "/") =
        some (.ok (ascii "/" ++ defaultName),
          disk.fs.unlink (bareExpansion conversion (ascii "/") ++ tmpName)) ∧
      disk.fs.isDir (bareExpansion conversion (ascii "/")) := by
  intro conversion disk
  have h : optsSanityCheckD true conversion disk (ascii "/") =
      some (.ok (ascii "/" ++ defaultName),
        disk.fs.unlink (bareExpansion conversion (ascii "/") ++ tmpName)) := rfl
  refine ⟨h, ?_⟩
  rcases (sanity_check_directory h).2 _ rfl with hdir | ⟨htext, -⟩
  · exact (FileSystem.isDir_unlink _).symm.trans hdir.2
  · exact absurd htext (by decide)

end PcapSipDump
