import PcapSipDump.Capture.FileName
import PcapSipDump.Lib.DirTree

/-!
# Making directories

`mkdir_p` of `pcapsipdump_lib.cpp`.  It cuts a path at its last slash and makes the directory in
front of it first.  In front of the first slash of an absolute path is the empty string, which
`stat` and `mkdir` refuse; so a directory is not made in the root directory itself.
-/

namespace PcapSipDump

open Lib Lib.CString

/-! ### A file system -/

/-- What exists, and the current directory. -/
structure FileSystem where
  tree : DirTree Bytes
  cwd : List Bytes
  cwd_exists : tree.has cwd

namespace FileSystem

variable (fs : FileSystem) (path : Bytes)

/-- What a path names: the empty string names nothing.  The names `.` and `..` have no meaning of
their own here. -/
def resolve : Option (List Bytes) :=
  match path with
  | [] => none
  | c :: _ =>
      some ((if c = 47 then [] else fs.cwd) ++ (components path).filter fun name => name ≠ [])

/-- `stat` finds a directory. -/
def isDir : Bool := (fs.resolve path).any fs.tree.has

/-- `stat` finds a file, the name of which has no slash behind it. -/
def isFile : Bool := path.getLast? ≠ some 47 && (fs.resolve path).any fs.tree.isFile

/-- `stat(path, &sb) == 0` -/
def stat : Bool := fs.isDir path || fs.isFile path

/-- `mkdir(path, mode)`, and whether it returns 0. -/
def mkdir : Bool × FileSystem :=
  match fs.resolve path with
  | some d =>
      ((fs.tree.mkdir d).1,
        { fs with
          tree := (fs.tree.mkdir d).2
          cwd_exists := fs.tree.has_of_mkdir fs.cwd_exists })
  | none => (false, fs)

end FileSystem

/-- The string in the array `s` of `mkdir_p`, the first part of a long path.  Without a terminator
in the array, `strrchr` leaves it. -/
def pathCopy (libbsd : Bool) (path : Bytes) : Option Bytes :=
  let s := (strlcpy libbsd (fun _ => 0 : Buf 256) path).toBytes
  if 0 ∈ s then some (cstr s) else none

lemma length_pathCopy_le {libbsd : Bool} {path s : Bytes} (h : pathCopy libbsd path = some s) :
    s.length ≤ path.length := by
  rw [pathCopy] at h
  split at h
  · exact Option.some.inj h ▸ length_cstr_strlcpy_le libbsd _ path
  · cases h

lemma nul_free_of_pathCopy {libbsd : Bool} {path s : Bytes} (h : pathCopy libbsd path = some s) :
    ∀ c ∈ s, c ≠ 0 := by
  rw [pathCopy] at h
  split at h
  · obtain rfl := Option.some.inj h
    exact fun c hc => by simpa using List.mem_takeWhile_imp hc
  · cases h

/-- A path of less than 256 characters is copied. -/
lemma pathCopy_eq (libbsd : Bool) {path : Bytes} (hpath : ∀ c ∈ path, c ≠ 0)
    (hlen : path.length < 256) : pathCopy libbsd path = some path := by
  have hcopy := (cstr_strlcpy_eq_iff libbsd (fun _ => 0 : Buf 256) (by omega) hpath []).mpr
    (Or.inl hlen)
  rw [List.append_nil] at hcopy
  have hzero := (zero_mem_strlcpy_iff libbsd (fun _ => 0 : Buf 256) (by omega) hpath).mpr
    (Or.inr hlen)
  exact (if_pos hzero).trans (congrArg some hcopy)

/-- The terminator is missing behind a longer one, without libbsd. -/
lemma pathCopy_eq_none_iff (libbsd : Bool) {path : Bytes} (hpath : ∀ c ∈ path, c ≠ 0) :
    pathCopy libbsd path = none ↔ ¬(libbsd = true ∨ path.length < 256) := by
  rw [pathCopy, ← zero_mem_strlcpy_iff libbsd (fun _ => 0 : Buf 256) (by omega) hpath]
  split <;> simp_all

/-- `mkdir_p`, and whether it returns 0, unless it leaves its array. -/
def mkdirP (libbsd : Bool) (fs : FileSystem) (path : Bytes) : Option (Bool × FileSystem) :=
  if fs.stat path then some (true, fs)
  else
    match _hcopy : pathCopy libbsd path with
    | none => none
    | some s =>
        match _hlast : strrchr 47 s with
        | some p => (mkdirP libbsd fs (s.take p)).map fun r => if r.1 then r.2.mkdir path else r
        | none => some (fs.mkdir path)
termination_by path.length
decreasing_by
  rw [List.length_take]
  exact (min_le_left _ _).trans_lt
    ((lt_length_of_strrchr _hlast).trans_le (length_pathCopy_le _hcopy))

section Unfold

variable {libbsd : Bool} {fs : FileSystem}

lemma mkdirP_of_stat {path : Bytes} (h : fs.stat path) :
    mkdirP libbsd fs path = some (true, fs) := by
  rw [mkdirP, if_pos h]

/-- What does not exist is made behind what is in front of its last slash. -/
lemma mkdirP_of_not_stat {path : Bytes} (h : fs.stat path = false) :
    mkdirP libbsd fs path = (pathCopy libbsd path).bind fun s =>
      match strrchr 47 s with
      | some p => (mkdirP libbsd fs (s.take p)).map fun r => if r.1 then r.2.mkdir path else r
      | none => some (fs.mkdir path) := by
  rw [mkdirP, if_neg (by rw [h]; exact Bool.false_ne_true)]
  split
  · rename_i hcopy
    rw [hcopy, Option.bind_none]
  · rename_i s hcopy
    rw [hcopy, Option.bind_some]
    split
    · rename_i p hlast
      rw [hlast]
    · rename_i hlast
      rw [hlast]

/-- A path with a slash: what is in front of the last one is made first. -/
lemma mkdirP_append {a b : Bytes} (hb : 47 ∉ b) (hpath : ∀ c ∈ a ++ 47 :: b, c ≠ 0)
    (hlen : (a ++ 47 :: b).length < 256) (h : fs.stat (a ++ 47 :: b) = false) :
    mkdirP libbsd fs (a ++ 47 :: b) = (mkdirP libbsd fs a).map fun r =>
      if r.1 then r.2.mkdir (a ++ 47 :: b) else r := by
  rw [mkdirP_of_not_stat h, pathCopy_eq libbsd hpath hlen, Option.bind_some, strrchr_append a hb]
  dsimp only
  rw [List.take_left]

/-- A path without a slash. -/
lemma mkdirP_of_not_mem {path : Bytes} (hslash : 47 ∉ path) (hpath : ∀ c ∈ path, c ≠ 0)
    (hlen : path.length < 256) (h : fs.stat path = false) :
    mkdirP libbsd fs path = some (fs.mkdir path) := by
  rw [mkdirP_of_not_stat h, pathCopy_eq libbsd hpath hlen, Option.bind_some,
    strrchr_eq_none hslash]

/-- The empty path names nothing. -/
lemma mkdirP_nil : mkdirP libbsd fs [] = some (false, fs) := by
  rw [mkdirP_of_not_mem List.not_mem_nil (by simp) (by simp) rfl]
  rfl

/-- A string that fits stays in its array. -/
lemma mkdirP_ne_none {path : Bytes} (hpath : ∀ c ∈ path, c ≠ 0)
    (hroom : libbsd = true ∨ path.length < 256) : mkdirP libbsd fs path ≠ none := by
  fun_induction mkdirP libbsd fs path with
  | case1 path hstat => exact Option.some_ne_none _
  | case2 path hstat hcopy => exact absurd hroom ((pathCopy_eq_none_iff libbsd hpath).mp hcopy)
  | case3 path hstat s hcopy p hlast ih =>
    have hlen : (s.take p).length ≤ path.length :=
      (List.length_take_le' p s).trans (length_pathCopy_le hcopy)
    have hrec := ih
      (fun c hc => nul_free_of_pathCopy hcopy c (List.mem_of_mem_take hc))
      (hroom.imp id hlen.trans_lt)
    rwa [Ne, Option.map_eq_none_iff]
  | case4 path hstat s hcopy hlast => exact Option.some_ne_none _

/-- **The array of `mkdir_p`.**  It is left exactly for a path of 256 characters or more that does
not exist, where `strlcpy` is `strncpy`. -/
lemma mkdirP_ne_none_iff {path : Bytes} (hpath : ∀ c ∈ path, c ≠ 0) :
    mkdirP libbsd fs path ≠ none ↔ libbsd = true ∨ path.length < 256 ∨ fs.stat path := by
  constructor
  · intro h
    by_contra hno
    rw [not_or, not_or] at hno
    obtain ⟨hlibbsd, hlen, hstat⟩ := hno
    have hcopy := (pathCopy_eq_none_iff libbsd hpath).mpr (not_or.mpr ⟨hlibbsd, hlen⟩)
    refine h ?_
    rw [mkdirP_of_not_stat (Bool.eq_false_iff.mpr hstat), hcopy, Option.bind_none]
  · rintro (h | h | h)
    · exact mkdirP_ne_none hpath (Or.inl h)
    · exact mkdirP_ne_none hpath (Or.inr h)
    · rw [mkdirP_of_stat h]
      exact Option.some_ne_none _

end Unfold

/-! ### Paths -/

/-- A name of a directory in a path. -/
def IsName (name : Bytes) : Prop := name ≠ [] ∧ 47 ∉ name ∧ 0 ∉ name ∧ name ≠ [46] ∧ name ≠ [46, 46]

/-- The names of a path, each behind a slash. -/
def slashed (names : List Bytes) : Bytes := names.flatMap (47 :: ·)

/-- The string of a path: a relative one has no slash in front. -/
def pathBytes (absolute : Bool) (names : List Bytes) : Bytes :=
  if absolute then if names = [] then [47] else slashed names else (slashed names).tail

/-- An absolute or a relative path of less than 256 characters, without empty, `.` and `..`
components. -/
structure CleanPath where
  absolute : Bool
  names : List Bytes
  isName : ∀ name ∈ names, IsName name
  ne_nil : absolute = false → names ≠ []
  length_lt : (pathBytes absolute names).length < 256

/-- The string of a path. -/
def CleanPath.bytes (p : CleanPath) : Bytes := pathBytes p.absolute p.names

/-- The directory that a path names. -/
def pathTarget (fs : FileSystem) (absolute : Bool) (names : List Bytes) : List Bytes :=
  (if absolute then [] else fs.cwd) ++ names

section Bytes

variable {absolute : Bool} {names : List Bytes} {name : Bytes}

lemma slashed_concat (names : List Bytes) (name : Bytes) :
    slashed (names ++ [name]) = slashed names ++ 47 :: name := by
  rw [slashed, List.flatMap_append, List.flatMap_singleton, slashed]

/-- The first name of a relative path has no slash in front. -/
lemma pathBytes_cons (name : Bytes) (names : List Bytes) :
    pathBytes false (name :: names) = name ++ slashed names := rfl

/-- A path with one more name. -/
lemma pathBytes_concat (hne : names ≠ []) (name : Bytes) :
    pathBytes absolute (names ++ [name]) = pathBytes absolute names ++ 47 :: name := by
  cases absolute with
  | true =>
    have hne' : names ++ [name] ≠ [] := List.append_ne_nil_of_right_ne_nil names (by simp)
    show (if names ++ [name] = [] then [47] else slashed (names ++ [name])) =
      (if names = [] then [47] else slashed names) ++ 47 :: name
    rw [if_neg hne', if_neg hne, slashed_concat]
  | false =>
    obtain ⟨first, rest, rfl⟩ := List.exists_cons_of_ne_nil hne
    rw [List.cons_append, pathBytes_cons, pathBytes_cons, slashed_concat, List.append_assoc]

lemma nul_free_slashed (hnames : ∀ name ∈ names, IsName name) : ∀ c ∈ slashed names, c ≠ 0 := by
  rintro c hc rfl
  obtain ⟨name, hname, hc⟩ := List.mem_flatMap.mp hc
  rcases List.mem_cons.mp hc with h47 | hc
  · exact absurd h47 (by decide)
  · exact (hnames name hname).2.2.1 hc

lemma nul_free_pathBytes (hnames : ∀ name ∈ names, IsName name) :
    ∀ c ∈ pathBytes absolute names, c ≠ 0 := by
  intro c hc
  rw [pathBytes] at hc
  split_ifs at hc
  · rw [List.mem_singleton.mp hc]
    decide
  · exact nul_free_slashed hnames c hc
  · exact nul_free_slashed hnames c (List.mem_of_mem_tail hc)

lemma components_slashed (hnames : ∀ name ∈ names, IsName name) :
    components (slashed names) = [] :: names := by
  induction names with
  | nil => rfl
  | cons name names ih =>
    obtain ⟨hname, hnames⟩ := List.forall_mem_cons.mp hnames
    have htail : components (name ++ slashed names) = name :: names := by
      rw [components, splitOn_append_of_not_mem hname.2.1, ← components, ih hnames,
        List.modifyHead_cons, List.append_nil]
    rw [slashed, List.flatMap_cons, ← slashed, components, List.cons_append,
      List.splitOn_cons_eq_if_modifyHead, if_pos (by rfl), ← components, htail]

/-- A clean path names its target. -/
lemma resolve_pathBytes (fs : FileSystem) (hnames : ∀ name ∈ names, IsName name)
    (hne : absolute = false → names ≠ []) :
    fs.resolve (pathBytes absolute names) = some (pathTarget fs absolute names) := by
  have hfilter : names.filter (fun name => name ≠ []) = names :=
    List.filter_eq_self.mpr fun name hname => decide_eq_true (hnames name hname).1
  cases absolute with
  | true =>
    rcases names with _ | ⟨first, rest⟩
    · rfl
    · have hcomponents := components_slashed hnames
      show some (_ ++ (components (slashed (first :: rest))).filter _) = _
      rw [hcomponents, List.filter_cons_of_neg (by simp), hfilter]
      rfl
  | false =>
    obtain ⟨first, rest, rfl⟩ := List.exists_cons_of_ne_nil (hne rfl)
    obtain ⟨⟨hfirst, hslash, -⟩, hrest⟩ := List.forall_mem_cons.mp hnames
    have hcomponents : components (first ++ slashed rest) = first :: rest := by
      rw [components, splitOn_append_of_not_mem hslash, ← components, components_slashed hrest,
        List.modifyHead_cons, List.append_nil]
    obtain ⟨c, first', rfl⟩ := List.exists_cons_of_ne_nil hfirst
    have hc : c ≠ 47 := by
      rintro rfl
      exact hslash List.mem_cons_self
    show some ((if c = 47 then [] else fs.cwd) ++
      (components ((c :: first') ++ slashed rest)).filter _) = _
    rw [hcomponents, hfilter, if_neg hc]
    rfl

/-- A clean path ends with its last name. -/
lemma getLast?_pathBytes_concat (hname : IsName name) :
    (pathBytes absolute (names ++ [name])).getLast? ≠ some 47 := by
  obtain ⟨front, hfront⟩ : ∃ front, pathBytes absolute (names ++ [name]) = front ++ name := by
    by_cases hnil : names = []
    · subst hnil
      cases absolute with
      | true => exact ⟨[47], List.append_nil _⟩
      | false => exact ⟨[], List.append_nil _⟩
    · exact ⟨pathBytes absolute names ++ [47], by simp [pathBytes_concat hnil]⟩
  obtain ⟨init, c, rfl⟩ := (List.eq_nil_or_concat' name).resolve_left hname.1
  rw [hfront, ← List.append_assoc, List.getLast?_concat, Ne, Option.some_inj]
  rintro rfl
  exact hname.2.1 (List.mem_append_right init List.mem_cons_self)

lemma stat_pathBytes (fs : FileSystem) (hnames : ∀ name ∈ names, IsName name)
    (hne : absolute = false → names ≠ []) :
    fs.stat (pathBytes absolute names) ↔ fs.tree.has (pathTarget fs absolute names) ∨
      fs.tree.isFile (pathTarget fs absolute names) := by
  rw [FileSystem.stat, FileSystem.isDir, FileSystem.isFile, resolve_pathBytes fs hnames hne,
    Option.any_some, Option.any_some, Bool.or_eq_true, Bool.and_eq_true, decide_eq_true_eq]
  refine or_congr_right ⟨And.right, fun hfile => ⟨?_, hfile⟩⟩
  rcases List.eq_nil_or_concat' names with rfl | ⟨front, name, rfl⟩
  · -- the root is no file
    cases absolute with
    | true =>
      rw [show pathTarget fs true [] = [] from rfl, fs.tree.isFile_eq_false fs.tree.root] at hfile
      exact absurd hfile Bool.false_ne_true
    | false => exact absurd rfl (hne rfl)
  · exact getLast?_pathBytes_concat (hnames name (by simp))

lemma mkdir_pathBytes (fs : FileSystem) (hnames : ∀ name ∈ names, IsName name)
    (hne : absolute = false → names ≠ []) :
    (fs.mkdir (pathBytes absolute names)).1 =
        (fs.tree.mkdir (pathTarget fs absolute names)).1 ∧
      (fs.mkdir (pathBytes absolute names)).2.tree =
        (fs.tree.mkdir (pathTarget fs absolute names)).2 ∧
      (fs.mkdir (pathBytes absolute names)).2.cwd = fs.cwd := by
  rw [FileSystem.mkdir, resolve_pathBytes fs hnames hne]
  exact ⟨rfl, rfl, rfl⟩

end Bytes

/-! ### What is made -/

/-- The path has been made with its ancestors, and nothing else has changed. -/
def FileSystem.Made (fs : FileSystem) (absolute : Bool) (names : List Bytes)
    (fs' : FileSystem) : Prop :=
  fs'.cwd = fs.cwd ∧ fs.tree.MakesAll (pathTarget fs absolute names) fs'.tree

/-- A part of the path is a file. -/
def FileSystem.Blocked (fs : FileSystem) (absolute : Bool) (names : List Bytes) : Prop :=
  ∃ d, d <+: pathTarget fs absolute names ∧ fs.tree.isFile d

section Made

variable {libbsd absolute : Bool} {fs fs' : FileSystem} {names : List Bytes} {name : Bytes}

lemma pathTarget_concat (names : List Bytes) (name : Bytes) :
    pathTarget fs absolute (names ++ [name]) = pathTarget fs absolute names ++ [name] :=
  (List.append_assoc _ _ _).symm

/-- What is blocked stays so with one more name. -/
lemma FileSystem.Blocked.concat (h : fs.Blocked absolute names) (name : Bytes) :
    fs.Blocked absolute (names ++ [name]) := by
  obtain ⟨d, hprefix, hfile⟩ := h
  refine ⟨d, ?_, hfile⟩
  rw [pathTarget_concat]
  exact hprefix.trans (List.prefix_append _ _)

lemma not_isFile_of_not_blocked (h : ¬fs.Blocked absolute names) :
    fs.tree.isFile (pathTarget fs absolute names) = false :=
  Bool.eq_false_iff.mpr fun hfile => h ⟨_, List.prefix_refl _, hfile⟩

/-- The last step: one more directory behind a part of the path that has been made. -/
lemma FileSystem.Made.mkdir (h : fs.Made absolute names fs')
    (hnames : ∀ x ∈ names ++ [name], IsName x)
    (hnew : fs.tree.has (pathTarget fs absolute (names ++ [name])) = false)
    (hfile : fs.tree.isFile (pathTarget fs absolute (names ++ [name])) = false) :
    ∃ fs'', fs'.mkdir (pathBytes absolute (names ++ [name])) = (true, fs'') ∧
      fs.Made absolute (names ++ [name]) fs'' := by
  obtain ⟨hcwd, hmade⟩ := h
  have htarget' : pathTarget fs' absolute (names ++ [name]) =
      pathTarget fs absolute names ++ [name] := by
    rw [← pathTarget_concat, pathTarget, pathTarget, hcwd]
  rw [pathTarget_concat] at hnew hfile
  obtain ⟨hok, hall⟩ := hmade.mkdir hnew hfile
  obtain ⟨hfst, htree, hcwd'⟩ := @mkdir_pathBytes absolute _ fs' hnames fun _ => by simp
  rw [htarget'] at hfst htree
  refine ⟨(fs'.mkdir (pathBytes absolute (names ++ [name]))).2, Prod.ext ?_ rfl,
    hcwd'.trans hcwd, ?_⟩
  · rw [hfst]
    exact hok
  · rw [htree, pathTarget_concat]
    exact hall

/-- A path of more than one name: the path without the last one is made first. -/
lemma mkdirP_concat (hnil : names ≠ []) (hnames : ∀ x ∈ names ++ [name], IsName x)
    (hlen : (pathBytes absolute (names ++ [name])).length < 256)
    (hnew : fs.stat (pathBytes absolute (names ++ [name])) = false) :
    mkdirP libbsd fs (pathBytes absolute (names ++ [name])) =
      (mkdirP libbsd fs (pathBytes absolute names)).map fun r =>
        if r.1 then r.2.mkdir (pathBytes absolute (names ++ [name])) else r := by
  have hname : IsName name := hnames name (List.mem_append_right names List.mem_cons_self)
  have hnul := @nul_free_pathBytes absolute _ hnames
  rw [pathBytes_concat hnil] at hlen hnew hnul ⊢
  exact mkdirP_append hname.2.1 hnul hlen hnew

lemma length_pathBytes_lt (hnil : names ≠ [])
    (hlen : (pathBytes absolute (names ++ [name])).length < 256) :
    (pathBytes absolute names).length < 256 := by
  rw [pathBytes_concat hnil, List.length_append] at hlen
  omega

/-- A name in the current directory is made there. -/
lemma mkdirP_name (hname : IsName name) (hlen : name.length < 256)
    (hnew : fs.tree.has (fs.cwd ++ [name]) = false)
    (hfile : fs.tree.isFile (fs.cwd ++ [name]) = false) :
    ∃ fs', mkdirP libbsd fs (pathBytes false [name]) = some (true, fs') ∧
      fs.Made false [name] fs' := by
  have hnames : ∀ x ∈ [name], IsName x := fun x hx => List.mem_singleton.mp hx ▸ hname
  have hbytes : pathBytes false [name] = name := List.append_nil name
  have hcwd : fs.Made false [] fs := by
    refine ⟨rfl, DirTree.makesAll_of_has ?_⟩
    rw [show pathTarget fs false [] = fs.cwd from List.append_nil fs.cwd]
    exact fs.cwd_exists
  have hstat : fs.stat (pathBytes false [name]) = false := by
    rw [← Bool.not_eq_true, stat_pathBytes fs hnames fun _ => by simp, not_or, Bool.not_eq_true,
      Bool.not_eq_true]
    exact ⟨hnew, hfile⟩
  have hnul : ∀ c ∈ name, c ≠ 0 := by
    rintro c hc rfl
    exact hname.2.2.1 hc
  have hmkdir : mkdirP libbsd fs (pathBytes false [name]) =
      some (fs.mkdir (pathBytes false [name])) := by
    rw [hbytes] at hstat ⊢
    exact mkdirP_of_not_mem hname.2.1 hnul hlen hstat
  obtain ⟨fs', hmk, hmade⟩ := @FileSystem.Made.mkdir false fs fs [] name hcwd hnames hnew hfile
  exact ⟨fs', hmkdir.trans (congrArg some hmk), hmade⟩

/-- The recursion reaches a directory that exists: the current one for a relative path, and the
first one of an absolute path if it exists. -/
lemma mkdirP_made (hnames : ∀ name ∈ names, IsName name) (hne : absolute = false → names ≠ [])
    (hlen : (pathBytes absolute names).length < 256) (hfree : ¬fs.Blocked absolute names)
    (hfirst : absolute = true → ∀ first ∈ names.head?, fs.tree.has [first]) :
    ∃ fs', mkdirP libbsd fs (pathBytes absolute names) = some (true, fs') ∧
      fs.Made absolute names fs' := by
  induction names using List.reverseRecOn with
  | nil =>
    have habsolute : absolute = true := by
      by_contra h
      exact hne (Bool.eq_false_iff.mpr h) rfl
    subst habsolute
    have hstat : fs.stat (pathBytes true []) :=
      (stat_pathBytes fs hnames hne).mpr (Or.inl fs.tree.root)
    exact ⟨fs, mkdirP_of_stat hstat, rfl, DirTree.makesAll_of_has fs.tree.root⟩
  | append_singleton names name ih =>
    have hstat := stat_pathBytes fs hnames hne
    have hfile := not_isFile_of_not_blocked hfree
    rcases hold : fs.tree.has (pathTarget fs absolute (names ++ [name])) with _ | _
    · rw [hold, hfile, or_self, iff_false_right Bool.false_ne_true, Bool.not_eq_true] at hstat
      by_cases hnil : names = []
      · subst hnil
        cases absolute with
        | true =>
          -- the first directory of an absolute path exists
          have hhas := hfirst rfl name rfl
          rw [show pathTarget fs true ([] ++ [name]) = [name] from rfl, hhas] at hold
          exact absurd hold.symm Bool.false_ne_true
        | false =>
          have hname : IsName name := hnames name List.mem_cons_self
          rw [show pathBytes false ([] ++ [name]) = name from List.append_nil name] at hlen
          exact mkdirP_name hname hlen hold hfile
      · have hnames' : ∀ x ∈ names, IsName x :=
          fun x hx => hnames x (List.mem_append_left [name] hx)
        have hfirst' : absolute = true → ∀ first ∈ names.head?, fs.tree.has [first] := by
          intro habsolute first hhead
          refine hfirst habsolute first ?_
          rw [List.head?_append_of_ne_nil names hnil]
          exact hhead
        obtain ⟨fs', hrec, hmade⟩ := ih hnames' (fun _ => hnil) (length_pathBytes_lt hnil hlen)
          (fun h => hfree (h.concat name)) hfirst'
        obtain ⟨fs'', hmk, hmade'⟩ := hmade.mkdir hnames hold hfile
        refine ⟨fs'', ?_, hmade'⟩
        rw [mkdirP_concat hnil hnames hlen hstat, hrec]
        exact congrArg some hmk
    · exact ⟨fs, mkdirP_of_stat (hstat.mpr (Or.inl hold)), rfl, DirTree.makesAll_of_has hold⟩

/-- Below a missing first directory of an absolute path the recursion ends at the empty path. -/
lemma mkdirP_missing {first : Bytes} (hhead : names.head? = some first)
    (hnames : ∀ name ∈ names, IsName name) (hlen : (pathBytes true names).length < 256)
    (hfirst : fs.tree.has [first] = false) (hfile : fs.tree.isFile [first] = false) :
    mkdirP libbsd fs (pathBytes true names) = some (false, fs) := by
  induction names using List.reverseRecOn with
  | nil => exact absurd hhead.symm (Option.some_ne_none first)
  | append_singleton names name ih =>
    have hprefix : [first] <+: names ++ [name] := by
      obtain ⟨rest, hrest⟩ := List.head?_eq_some_iff.mp hhead
      exact ⟨rest, hrest.symm⟩
    have hstat : fs.stat (pathBytes true (names ++ [name])) = false := by
      rw [← Bool.not_eq_true, stat_pathBytes fs hnames fun h => absurd h.symm Bool.false_ne_true]
      rintro (hhas | hhas)
      · rw [fs.tree.has_of_prefix hprefix hhas] at hfirst
        exact absurd hfirst.symm Bool.false_ne_true
      · have hne : [first] ≠ names ++ [name] := by
          intro heq
          rw [show pathTarget fs true (names ++ [name]) = names ++ [name] from rfl, ← heq,
            hfile] at hhas
          exact Bool.false_ne_true hhas
        rw [fs.tree.has_of_prefix_isFile hprefix hne hhas] at hfirst
        exact absurd hfirst.symm Bool.false_ne_true
    by_cases hnil : names = []
    · subst hnil
      have hname : IsName name := hnames name List.mem_cons_self
      have hnul := @nul_free_pathBytes true _ hnames
      have hbytes : pathBytes true ([] ++ [name]) = [] ++ 47 :: name := List.append_nil _
      rw [hbytes] at hstat hnul hlen ⊢
      rw [mkdirP_append hname.2.1 hnul hlen hstat, mkdirP_nil]
      rfl
    · have hhead' : names.head? = some first := by
        rwa [List.head?_append_of_ne_nil names hnil] at hhead
      rw [mkdirP_concat hnil hnames hlen hstat,
        ih hhead' (fun x hx => hnames x (List.mem_append_left [name] hx))
          (length_pathBytes_lt hnil hlen)]
      rfl

end Made

/-- **`mkdir -p`.**  `mkdir_p` returns 0 with the path and all its ancestors made and nothing
else changed, and a second call returns 0 and changes nothing, if and only if the path is relative
or the root directory, or its first directory exists, and no file is in the way. -/
theorem mkdir_p_iff (libbsd : Bool) (fs : FileSystem) (p : CleanPath) :
    (∃ fs', mkdirP libbsd fs p.bytes = some (true, fs') ∧ fs.Made p.absolute p.names fs' ∧
        mkdirP libbsd fs' p.bytes = some (true, fs')) ↔
      (p.absolute = true → ∀ first ∈ p.names.head?, fs.tree.has [first]) ∧
        ¬fs.Blocked p.absolute p.names := by
  constructor
  · rintro ⟨fs', hcall, hmade, -⟩
    have hfree : ¬fs.Blocked p.absolute p.names := by
      rintro ⟨d, hprefix, hfile⟩
      rw [hmade.2.isFile_eq_false hprefix] at hfile
      exact Bool.false_ne_true hfile
    refine ⟨fun habsolute first hhead => ?_, hfree⟩
    by_contra hfirst
    have hlen := p.length_lt
    rw [habsolute] at hlen hfree
    rw [CleanPath.bytes, habsolute] at hcall
    have hfile : fs.tree.isFile [first] = false := by
      refine Bool.eq_false_iff.mpr fun hfile => hfree ⟨[first], ?_, hfile⟩
      obtain ⟨rest, hrest⟩ := List.head?_eq_some_iff.mp hhead
      exact ⟨rest, hrest.symm⟩
    rw [mkdirP_missing hhead p.isName hlen (Bool.eq_false_iff.mpr hfirst) hfile] at hcall
    exact Bool.false_ne_true (Prod.mk.inj (Option.some.inj hcall)).1
  · rintro ⟨hfirst, hfree⟩
    obtain ⟨fs', hcall, hmade⟩ := mkdirP_made p.isName p.ne_nil p.length_lt hfree hfirst
    refine ⟨fs', hcall, hmade, mkdirP_of_stat ?_⟩
    have htarget : pathTarget fs' p.absolute p.names = pathTarget fs p.absolute p.names := by
      rw [pathTarget, pathTarget, hmade.1]
    rw [CleanPath.bytes, stat_pathBytes fs' p.isName p.ne_nil, htarget]
    exact Or.inl hmade.2.has

/-- A file system with nothing but the root directory. -/
def FileSystem.bare : FileSystem where
  tree :=
    { has := fun d => d.isEmpty
      isFile := fun _ => false
      root := rfl
      parent := fun d name h => by simp at h
      not_both := fun d h => absurd h Bool.false_ne_true }
  cwd := []
  cwd_exists := rfl

/-- `/a`. -/
def CleanPath.belowRoot : CleanPath where
  absolute := true
  names := [ascii "a"]
  isName := by
    intro name hname
    rw [List.mem_singleton.mp hname]
    exact ⟨by decide, by decide, by decide, by decide, by decide⟩
  ne_nil := fun h => absurd h.symm Bool.false_ne_true
  length_lt := by decide

/-- `/a` is not made: `mkdir_p` gives up at the empty path.  No file is needed for this. -/
theorem mkdir_p_false :
    ¬∀ (libbsd : Bool) (fs : FileSystem) (p : CleanPath), (∀ d, fs.tree.isFile d = false) →
      ∃ fs', mkdirP libbsd fs p.bytes = some (true, fs') ∧ fs.Made p.absolute p.names fs' ∧
        mkdirP libbsd fs' p.bytes = some (true, fs') := by
  intro h
  obtain ⟨fs', hcall, -, -⟩ := h true FileSystem.bare CleanPath.belowRoot fun _ => rfl
  have hmissing : mkdirP true FileSystem.bare CleanPath.belowRoot.bytes =
      some (false, FileSystem.bare) :=
    @mkdirP_missing true FileSystem.bare [ascii "a"] (ascii "a") rfl CleanPath.belowRoot.isName
      CleanPath.belowRoot.length_lt rfl rfl
  rw [hmissing] at hcall
  exact Bool.false_ne_true (Prod.mk.inj (Option.some.inj hcall)).1

end PcapSipDump
