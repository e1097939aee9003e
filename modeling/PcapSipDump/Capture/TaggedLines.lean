import Mathlib.Data.List.TakeWhile
import Mathlib.Order.Bounds.Basic
import PcapSipDump.Capture.SipText

/-!
# The tagged lines of a text

`gettag` finds the first position at the start of a line where the tag stands, and returns the
rest of that line without leading blanks, unless the line is the unterminated last one
(`gettag_of_first`, `gettag_of_none`, `gettag_first_tagged_line`).  So its result is a function of
the terminated lines of the text alone (`map_slice_gettag`).
-/

namespace PcapSipDump

open Lib.CString

variable {buf tag : Bytes}

/-! ### The position of a tag -/

/-- The tag stands in the buffer at position `i`, which is the start of a line. -/
def TagAt (buf tag : Bytes) (i : ℕ) : Prop :=
  tag <+: buf.drop i ∧ (i = 0 ∨ isEol (buf.getD (i - 1) 0))

/-- Where the value of a tag at position `i` starts. -/
def valueStart (buf tag : Bytes) (i : ℕ) : ℕ :=
  i + tag.length + ((buf.drop (i + tag.length)).takeWhile (· = 32)).length

/-- The number of bytes up to the end of the line. -/
def lineLength (buf : Bytes) (start : ℕ) : ℕ :=
  ((buf.drop start).takeWhile fun c => !isEol c).length

/-- The value of a tag at position `i`, unless its line is not terminated. -/
def valueAt (buf tag : Bytes) (i : ℕ) : Option (ℕ × ℕ) :=
  if valueStart buf tag i + lineLength buf (valueStart buf tag i) < buf.length then
    some (valueStart buf tag i, lineLength buf (valueStart buf tag i))
  else none

/-- The value starts behind the blanks, also when more follows the buffer. -/
lemma drop_valueStart {i : ℕ} (h : valueStart buf tag i < buf.length) (rest : Bytes) :
    (buf ++ rest).drop (valueStart buf tag i) =
      ((buf ++ rest).drop (i + tag.length)).dropWhile (· = 32) := by
  have hin : i + tag.length ≤ buf.length := (Nat.le_add_right _ _).trans h.le
  have hfirst := drop_takeWhile (· = 32) (buf.drop (i + tag.length))
  rw [List.drop_drop, ← valueStart] at hfirst
  have hstop : (buf.drop (i + tag.length)).dropWhile (· = 32) ≠ [] := by
    rw [← hfirst]
    exact List.ne_nil_of_length_pos (by rw [List.length_drop]; omega)
  rw [List.drop_append_of_le_length h.le, List.drop_append_of_le_length hin, List.dropWhile_append,
    if_neg (by simpa using hstop), hfirst]

lemma gettagFrom_eq_none {fuel r : ℕ} (h : ∀ i, r ≤ i → ¬TagAt buf tag i) :
    gettagFrom buf tag fuel r = none := by
  induction fuel generalizing r with
  | zero => rfl
  | succ fuel ih =>
    unfold gettagFrom
    rcases hm : memmem (buf.drop r) tag with _ | k
    · rfl
    · obtain ⟨hpre, -⟩ := memmem_eq_some hm
      rw [List.drop_drop] at hpre
      have hinside : ¬(r + k = 0 ∨ isEol (buf.getD (r + k - 1) 0)) :=
        fun hline => h (r + k) (by omega) ⟨hpre, hline⟩
      simp only [if_neg hinside]
      exact ih fun i hi => h i (by omega)

/-- Behind an unterminated value there is no other line. -/
lemma not_tagAt_of_unterminated (hne : tag ≠ []) (heol : ∀ c ∈ tag, isEol c = false) {i : ℕ}
    (hat : tag <+: buf.drop i)
    (hend : ¬valueStart buf tag i + lineLength buf (valueStart buf tag i) < buf.length) {j : ℕ}
    (hj : valueStart buf tag i ≤ j) : ¬TagAt buf tag j := by
  rintro ⟨hpre, hline⟩
  have hlen : 0 < tag.length := List.length_pos_iff.mpr hne
  have hstart : i + tag.length ≤ valueStart buf tag i := Nat.le_add_right _ _
  have hlast : isEol (buf.getD (j - 1) 0) := hline.resolve_left (by omega)
  have hin : j < buf.length := by
    have hle := hpre.length_le
    rw [List.length_drop] at hle
    omega
  -- the byte before `j` is in the line, or a blank before its value, or in the tag
  by_cases hafter : valueStart buf tag i ≤ j - 1
  · have hmem := getD_mem_of_isPre (List.takeWhile_prefix fun c => !isEol c) hafter
      (show j - 1 < _ + lineLength buf _ by omega)
    have hno := List.mem_takeWhile_imp hmem
    simp only [hlast] at hno
    exact absurd hno (by decide)
  · by_cases hblank : i + tag.length ≤ j - 1
    · have hmem := getD_mem_of_isPre (List.takeWhile_prefix fun c : UInt8 => decide (c = 32))
        hblank (show j - 1 < valueStart buf tag i by omega)
      have heq := List.mem_takeWhile_imp hmem
      rw [of_decide_eq_true heq] at hlast
      exact absurd hlast (by decide)
    · have hmem := getD_mem_of_isPre hat (show i ≤ j - 1 by omega) (by omega)
      rw [heol _ hmem] at hlast
      exact absurd hlast (by decide)

lemma gettagFrom_of_first (hne : tag ≠ []) (heol : ∀ c ∈ tag, isEol c = false) {fuel r i : ℕ}
    (hfuel : buf.length < r + fuel) (hr : r ≤ i) (hat : TagAt buf tag i)
    (hfirst : ∀ j, r ≤ j → j < i → ¬TagAt buf tag j) :
    gettagFrom buf tag fuel r = valueAt buf tag i := by
  have hin : i < buf.length := by
    have hle := hat.1.length_le
    have hlen : 0 < tag.length := List.length_pos_iff.mpr hne
    rw [List.length_drop] at hle
    omega
  induction fuel generalizing r with
  | zero => omega
  | succ fuel ih =>
    unfold gettagFrom
    rcases hm : memmem (buf.drop r) tag with _ | k
    · have hno := memmem_eq_none hm (i - r)
      rw [List.drop_drop, Nat.add_sub_cancel' hr] at hno
      exact absurd hat.1 hno
    · obtain ⟨hpre, hbefore⟩ := memmem_eq_some hm
      rw [List.drop_drop] at hpre
      have hle : r + k ≤ i := by
        by_contra hlt
        have hno := hbefore (i - r) (by omega)
        rw [List.drop_drop, Nat.add_sub_cancel' hr] at hno
        exact hno hat.1
      by_cases hline : r + k = 0 ∨ isEol (buf.getD (r + k - 1) 0)
      · obtain rfl : r + k = i := by
          by_contra hne'
          exact hfirst (r + k) (by omega) (by omega) ⟨hpre, hline⟩
        simp only [if_pos hline]
        change (if valueStart buf tag (r + k) + lineLength buf (valueStart buf tag (r + k)) <
          buf.length then _ else _) = valueAt buf tag (r + k)
        unfold valueAt
        by_cases hend : valueStart buf tag (r + k) +
          lineLength buf (valueStart buf tag (r + k)) < buf.length
        · rw [if_pos hend, if_pos hend]
          rfl
        · rw [if_neg hend, if_neg hend]
          exact gettagFrom_eq_none fun j hj => not_tagAt_of_unterminated hne heol hpre hend hj
      · simp only [if_neg hline]
        have hne' : r + k ≠ i := fun heq => hline (heq ▸ hat.2)
        exact ih (by omega) (by omega) fun j hj hji => hfirst j (by omega) hji

/-- Without the tag at the start of a line there is no value. -/
theorem gettag_of_none {s : Bytes} {len : ℕ} (h : ∀ i, ¬TagAt (buffer s len) tag i) :
    gettag s len tag = none := by
  unfold gettag
  simp only
  split
  · exact gettagFrom_eq_none fun i _ => h i
  · rfl

/-- **`gettag` returns the value at the first position** at the start of a line where the tag
stands, and nothing if that line is not terminated. -/
theorem gettag_of_first (hne : tag ≠ []) (heol : ∀ c ∈ tag, isEol c = false) {s : Bytes}
    {len i : ℕ} (hat : TagAt (buffer s len) tag i) (hfirst : ∀ j < i, ¬TagAt (buffer s len) tag j) :
    gettag s len tag = valueAt (buffer s len) tag i := by
  unfold gettag
  simp only
  split
  · exact gettagFrom_of_first hne heol (by omega) (Nat.zero_le i) hat fun j _ hj => hfirst j hj
  · -- a single byte is no terminated line with a tag
    rename_i hlen
    have hshort : (buffer s len).length ≤ 1 := (length_buffer_le s len).trans (by omega)
    have htag : 0 < tag.length := List.length_pos_iff.mpr hne
    have hstart : i + tag.length ≤ valueStart (buffer s len) tag i := Nat.le_add_right _ _
    rw [valueAt, if_neg (by omega)]

/-! ### The exact result -/

/-- The loop of `gettag`, `none` when it takes more than the given number of rounds. -/
def gettagLoop (buf tag : Bytes) : ℕ → ℕ → Option (Option (ℕ × ℕ))
  | 0, _ => none
  | rounds + 1, r =>
      if r < buf.length then
        match memmem (buf.drop r) tag with
        | none => some none
        | some k =>
            if r + k = 0 ∨ isEol (buf.getD (r + k - 1) 0) then
              if valueStart buf tag (r + k) + lineLength buf (valueStart buf tag (r + k)) <
                  buf.length then
                some (some (valueStart buf tag (r + k),
                  lineLength buf (valueStart buf tag (r + k))))
              else gettagLoop buf tag rounds (valueStart buf tag (r + k))
            else gettagLoop buf tag rounds (r + k + 1)
      else some none

lemma valueStart_gt (hne : tag ≠ []) (i : ℕ) : i < valueStart buf tag i := by
  have hlen : 0 < tag.length := List.length_pos_iff.mpr hne
  have hstart : i + tag.length ≤ valueStart buf tag i := Nat.le_add_right _ _
  omega

/-- Every round moves `r` on, so the loop ends, with the result of `gettagFrom`. -/
lemma gettagLoop_eq (hne : tag ≠ []) {rounds r : ℕ} (hpos : 0 < rounds)
    (hrounds : buf.length < r + rounds) :
    gettagLoop buf tag rounds r = some (gettagFrom buf tag rounds r) := by
  induction rounds generalizing r with
  | zero => omega
  | succ rounds ih =>
    rw [gettagLoop, gettagFrom]
    by_cases hr : r < buf.length
    · rw [if_pos hr]
      rcases memmem (buf.drop r) tag with _ | k
      · rfl
      · show (if r + k = 0 ∨ isEol (buf.getD (r + k - 1) 0) then
            if valueStart buf tag (r + k) + lineLength buf (valueStart buf tag (r + k)) <
                buf.length then
              some (some (valueStart buf tag (r + k),
                lineLength buf (valueStart buf tag (r + k))))
            else gettagLoop buf tag rounds (valueStart buf tag (r + k))
          else gettagLoop buf tag rounds (r + k + 1)) =
          some (if r + k = 0 ∨ isEol (buf.getD (r + k - 1) 0) then
            if valueStart buf tag (r + k) + lineLength buf (valueStart buf tag (r + k)) <
                buf.length then
              some (valueStart buf tag (r + k), lineLength buf (valueStart buf tag (r + k)))
            else gettagFrom buf tag rounds (valueStart buf tag (r + k))
          else gettagFrom buf tag rounds (r + k + 1))
        have hgt : r + k < valueStart buf tag (r + k) := valueStart_gt hne (r + k)
        rw [ih (r := valueStart buf tag (r + k)) (by omega) (by omega),
          ih (r := r + k + 1) (by omega) (by omega)]
        split
        · split <;> rfl
        · rfl
    · have hempty : memmem (buf.drop r) tag = none := by
        rw [List.drop_eq_nil_of_le (not_lt.mp hr)]
        cases tag with
        | nil => exact absurd rfl hne
        | cons c tag => rfl
      rw [if_neg hr, hempty]

/-- The value starts at the first position behind the tag that is not a blank. -/
lemma isLeast_valueStart (buf tag : Bytes) (p : ℕ) :
    IsLeast {v | p + tag.length ≤ v ∧ buf.getD v 0 ≠ 32} (valueStart buf tag p) := by
  obtain ⟨hblank, hstop⟩ := takeWhile_stop (· = 32) buf (p + tag.length)
  refine ⟨⟨Nat.le_add_right _ _, ?_⟩, ?_⟩
  · show buf.getD (valueStart buf tag p) 0 ≠ 32
    by_cases hlt : valueStart buf tag p < buf.length
    · exact of_decide_eq_false (hstop hlt)
    · rw [List.getD_eq_getElem?_getD, List.getElem?_eq_none (not_lt.mp hlt)]
      decide
  · rintro v ⟨hv, hne⟩
    by_contra hlt
    exact hne (of_decide_eq_true (hblank v hv (not_le.mp hlt)))

/-- The value ends at the first line end. -/
lemma isLeast_lineEnd_iff (buf : Bytes) (v e : ℕ) :
    IsLeast {e | v ≤ e ∧ e < buf.length ∧ isEol (buf.getD e 0)} e ↔
      v + lineLength buf v < buf.length ∧ e = v + lineLength buf v := by
  obtain ⟨hline, hstop⟩ := takeWhile_stop (fun c => !isEol c) buf v
  have hleast : v + lineLength buf v < buf.length →
      IsLeast {e | v ≤ e ∧ e < buf.length ∧ isEol (buf.getD e 0)} (v + lineLength buf v) := by
    intro hlt
    refine ⟨⟨Nat.le_add_right _ _, hlt, ?_⟩, ?_⟩
    · show isEol (buf.getD (v + lineLength buf v) 0) = true
      have hend : (!isEol (buf.getD (v + lineLength buf v) 0)) = false := hstop hlt
      rw [Bool.not_eq_false'] at hend
      exact hend
    · rintro e' ⟨hv, -, heol⟩
      by_contra hbefore
      have hno := hline e' hv (not_le.mp hbefore)
      simp only [heol] at hno
      exact absurd hno (by decide)
  constructor
  · intro he
    obtain ⟨⟨hv, hin, heol⟩, -⟩ := id he
    have hlt : v + lineLength buf v < buf.length := by
      by_contra hout
      have hno := hline e hv (show e < v + lineLength buf v by omega)
      simp only [heol] at hno
      exact absurd hno (by decide)
    exact ⟨hlt, he.unique (hleast hlt)⟩
  · rintro ⟨hlt, rfl⟩
    exact hleast hlt

lemma valueAt_eq_some_iff {p : ℕ} {v : ℕ × ℕ} : valueAt buf tag p = some v ↔
    IsLeast {i | p + tag.length ≤ i ∧ buf.getD i 0 ≠ 32} v.1 ∧
      IsLeast {i | v.1 ≤ i ∧ i < buf.length ∧ isEol (buf.getD i 0)} (v.1 + v.2) := by
  obtain ⟨start, length⟩ := v
  simp only [isLeast_lineEnd_iff, valueAt]
  constructor
  · intro h
    split at h
    · rename_i hend
      obtain ⟨rfl, rfl⟩ := Prod.mk.inj (Option.some.inj h)
      exact ⟨isLeast_valueStart buf tag p, hend, rfl⟩
    · simp at h
  · rintro ⟨hstart, hend, hlength⟩
    obtain rfl := hstart.unique (isLeast_valueStart buf tag p)
    obtain rfl : length = lineLength buf (valueStart buf tag p) := Nat.add_left_cancel hlength
    rw [if_pos hend]

/-- `gettag` with a bound on the rounds of its loop. -/
def gettagRun (s : Bytes) (len : ℕ) (tag : Bytes) (rounds : ℕ) : Option (Option (ℕ × ℕ)) :=
  if 1 < len then gettagLoop (buffer s len) tag rounds 0 else some none

lemma gettagRun_eq (hne : tag ≠ []) (s : Bytes) (len : ℕ) :
    gettagRun s len tag ((buffer s len).length + 1) = some (gettag s len tag) := by
  unfold gettagRun gettag
  split
  · exact gettagLoop_eq hne (by omega) (by omega)
  · rfl

lemma gettag_eq_some_iff (hne : tag ≠ []) (heol : ∀ c ∈ tag, isEol c = false) {s : Bytes}
    {len : ℕ} {v : ℕ × ℕ} : gettag s len tag = some v ↔
      ∃ p, IsLeast {i | TagAt (buffer s len) tag i} p ∧ valueAt (buffer s len) tag p = some v := by
  classical
  by_cases hat : ∃ i, TagAt (buffer s len) tag i
  · have hleast : IsLeast {i | TagAt (buffer s len) tag i} (Nat.find hat) :=
      ⟨Nat.find_spec hat, fun i hi => Nat.find_min' hat hi⟩
    have hvalue : gettag s len tag = valueAt (buffer s len) tag (Nat.find hat) :=
      gettag_of_first hne heol (Nat.find_spec hat) fun j hj => Nat.find_min hat hj
    rw [hvalue]
    constructor
    · intro h
      exact ⟨_, hleast, h⟩
    · rintro ⟨p, hp, h⟩
      obtain rfl := hp.unique hleast
      exact h
  · rw [gettag_of_none fun i hi => hat ⟨i, hi⟩]
    constructor
    · intro h
      simp at h
    · rintro ⟨p, hp, -⟩
      exact absurd ⟨p, hp.1⟩ hat

/-- The bytes of the buffer. -/
lemma getElem?_buffer {s : Bytes} {len i : ℕ} (h : i < (buffer s len).length) :
    (buffer s len)[i]? = s[i]? := by
  obtain ⟨rest, hrest⟩ := buffer_prefix_self s len
  calc (buffer s len)[i]? = (buffer s len ++ rest)[i]? := (List.getElem?_append_left h).symm
    _ = s[i]? := by rw [hrest]

/-- What `gettag` returns lies inside the buffer, has no line end and does not start with a
blank. -/
lemma value_of_gettag (hne : tag ≠ []) (heol : ∀ c ∈ tag, isEol c = false) {s : Bytes}
    {len : ℕ} {v : ℕ × ℕ} (h : gettag s len tag = some v) : v.1 + v.2 < (buffer s len).length ∧
      (∀ c ∈ slice s v, isEol c = false) ∧ (slice s v).head? ≠ some 32 := by
  obtain ⟨p, -, hvalue⟩ := (gettag_eq_some_iff hne heol).mp h
  obtain ⟨⟨⟨-, hblank⟩, -⟩, ⟨-, hin, -⟩, hfirst⟩ := valueAt_eq_some_iff.mp hvalue
  have hbyte : ∀ i < v.2, (slice s v)[i]? = some ((buffer s len).getD (v.1 + i) 0) := by
    intro i hi
    have hlt : v.1 + i < (buffer s len).length := by omega
    rw [slice, List.getElem?_take_of_lt hi, List.getElem?_drop, List.getD_eq_getElem?_getD,
      ← getElem?_buffer hlt, List.getElem?_eq_getElem hlt, Option.getD_some]
  have hlength : (slice s v).length ≤ v.2 := List.length_take_le _ _
  refine ⟨hin, fun c hc => ?_, fun hhead => ?_⟩
  · obtain ⟨i, hi, rfl⟩ := List.getElem_of_mem hc
    have hget := hbyte i (by omega)
    rw [List.getElem?_eq_getElem hi] at hget
    rw [Option.some.inj hget]
    by_contra heol'
    have hend : v.1 + v.2 ≤ v.1 + i :=
      hfirst ⟨Nat.le_add_right _ _, by omega, Bool.not_eq_false _ ▸ heol'⟩
    omega
  · rw [List.head?_eq_getElem?] at hhead
    obtain ⟨hpos, -⟩ := List.getElem?_eq_some_iff.mp hhead
    have hget := hbyte 0 (by omega)
    exact hblank (Option.some.inj (hget.symm.trans hhead))

/-- **`gettag` returns exactly the first usable tagged line.**  The loop ends, after at most one
round for each byte and one more.  `p` is the first position of the tag at the start of a line,
`v.1` the first one behind it that is not a blank, and `v.1 + v.2` the first line end from there
on; if one of them is missing, there is no value.  Where `len` bytes are there, the buffer is that
of these (`buffer_of_le`). -/
theorem gettag_first_tagged_line (s : Bytes) (len : ℕ) (tag : Bytes) (hne : tag ≠ [])
    (heol : ∀ c ∈ tag, isEol c = false) :
    gettagRun s len tag ((buffer s len).length + 1) = some (gettag s len tag) ∧
      (∀ v, gettag s len tag = some v ↔ ∃ p, IsLeast {i | TagAt (buffer s len) tag i} p ∧
        IsLeast {i | p + tag.length ≤ i ∧ (buffer s len).getD i 0 ≠ 32} v.1 ∧
        IsLeast {i | v.1 ≤ i ∧ i < (buffer s len).length ∧ isEol ((buffer s len).getD i 0)}
          (v.1 + v.2)) ∧
      ∀ v, gettag s len tag = some v → v.1 + v.2 < (buffer s len).length ∧
        (∀ c ∈ slice s v, isEol c = false) ∧ (slice s v).head? ≠ some 32 := by
  refine ⟨gettagRun_eq hne s len, fun v => ?_, fun v h => value_of_gettag hne heol h⟩
  rw [gettag_eq_some_iff hne heol]
  exact exists_congr fun p => and_congr_right fun _ => valueAt_eq_some_iff

theorem gettag_first_tagged_line_subject :
    gettag (ascii "x Subject: a\r\nSubject:  bc\r\n") 28 (ascii "Subject:") = some (24, 2) ∧
      ∃ p, IsLeast {i | TagAt ((ascii "x Subject: a\r\nSubject:  bc\r\n").take 28)
        (ascii "Subject:") i} p := by
  have hvalue : gettag (ascii "x Subject: a\r\nSubject:  bc\r\n") 28 (ascii "Subject:") =
      some (24, 2) := by decide +kernel
  obtain ⟨-, hfirst, -⟩ := gettag_first_tagged_line (ascii "x Subject: a\r\nSubject:  bc\r\n") 28
    (ascii "Subject:") (by decide +kernel) (by decide +kernel)
  obtain ⟨p, hp, -⟩ := (hfirst (24, 2)).mp hvalue
  exact ⟨hvalue, p, hp⟩

/-! ### The lines -/

/-- The lines of a text: what stands between carriage returns and line feeds. -/
def lines (s : Bytes) : List Bytes := s.splitOnP isEol

/-- The value of a line with the tag: what follows the tag and the blanks behind it. -/
def lineValue (tag line : Bytes) : Bytes := (line.drop tag.length).dropWhile (· = 32)

/-- The value of the first line with the tag. -/
def taggedValue (tag : Bytes) (ls : List Bytes) : Option Bytes :=
  (ls.find? fun line => tag.isPrefixOf line).map (lineValue tag)

/-- A value that does not start with a blank stands behind the tag. -/
lemma lineValue_append (tag : Bytes) {x : Bytes} (hx : x.headD 0 ≠ 32) :
    lineValue tag (tag ++ x) = x := by
  rw [lineValue, List.drop_left]
  cases x with
  | nil => rfl
  | cons c x => exact List.dropWhile_cons_of_neg (by simpa using hx)

lemma lines_append (a b : Bytes) {c : UInt8} (hc : isEol c) :
    lines (a ++ c :: b) = lines a ++ lines b :=
  List.splitOnP_append_cons a b hc

lemma lines_of_forall (h : ∀ c ∈ buf, isEol c = false) : lines buf = [buf] :=
  List.splitOnP_eq_singleton h

lemma lines_ne_nil (s : Bytes) : lines s ≠ [] := List.splitOnP_ne_nil _ _

/-- The terminated lines of a line and what follows it. -/
lemma dropLast_lines_line {line : Bytes} (hline : ∀ c ∈ line, isEol c = false) {c : UInt8}
    (hc : isEol c) (rest : Bytes) :
    (lines (line ++ c :: rest)).dropLast = line :: (lines rest).dropLast := by
  rw [lines_append _ _ hc, lines_of_forall hline, List.singleton_append,
    List.dropLast_cons_of_ne_nil (lines_ne_nil rest)]

lemma taggedValue_cons (tag line : Bytes) (ls : List Bytes) : taggedValue tag (line :: ls) =
    if tag <+: line then some (lineValue tag line) else taggedValue tag ls := by
  by_cases h : tag <+: line
  · rw [if_pos h, taggedValue, List.find?_cons_of_pos (List.isPrefixOf_iff_prefix.mpr h),
      Option.map_some]
  · rw [if_neg h, taggedValue,
      List.find?_cons_of_neg fun hpre => h (List.isPrefixOf_iff_prefix.mp hpre), taggedValue]

lemma taggedValue_append (tag : Bytes) (l l' : List Bytes) :
    taggedValue tag (l ++ l') = (taggedValue tag l).or (taggedValue tag l') := by
  rw [taggedValue, List.find?_append]
  rcases hfind : l.find? fun line => tag.isPrefixOf line with _ | line
  · simp [taggedValue, hfind]
  · simp [taggedValue, hfind]

/-- A text is one line, or a line, its end and the rest. -/
lemma exists_line (s : Bytes) : (∀ c ∈ s, isEol c = false) ∨
    ∃ line c rest, s = line ++ c :: rest ∧ (∀ c ∈ line, isEol c = false) ∧ isEol c := by
  induction s with
  | nil => exact Or.inl (by simp)
  | cons a s ih =>
    by_cases ha : isEol a
    · exact Or.inr ⟨[], a, s, rfl, by simp, ha⟩
    · have ha' : isEol a = false := by simpa using ha
      rcases ih with h | ⟨line, c, rest, rfl, hline, hc⟩
      · left
        simpa [ha'] using h
      · exact Or.inr ⟨a :: line, c, rest, rfl, by simpa [ha'] using hline, hc⟩

section Line

variable {line rest : Bytes} {c : UInt8}

lemma drop_line (j : ℕ) : (line ++ c :: rest).drop (line.length + 1 + j) = rest.drop j := by
  rw [Nat.add_assoc, List.drop_length_add_append, Nat.add_comm 1 j, List.drop_succ_cons]

lemma getD_line (j : ℕ) : (line ++ c :: rest).getD (line.length + 1 + j) 0 = rest.getD j 0 := by
  have hdrop : ((line ++ c :: rest).drop (line.length + 1 + j)).getD 0 0 = (rest.drop j).getD 0 0 :=
    congrArg (fun l : Bytes => l.getD 0 0) (drop_line j)
  simpa using hdrop

/-- Behind a line the positions are those of the rest. -/
lemma tagAt_rest_iff (hc : isEol c) (j : ℕ) :
    TagAt (line ++ c :: rest) tag (line.length + 1 + j) ↔ TagAt rest tag j := by
  unfold TagAt
  rw [drop_line]
  refine and_congr_right fun _ => ?_
  cases j with
  | zero =>
    refine iff_of_true (Or.inr ?_) (Or.inl rfl)
    simpa using hc
  | succ j =>
    rw [show line.length + 1 + (j + 1) - 1 = line.length + 1 + j by omega, getD_line]
    simp

lemma valueAt_rest (j : ℕ) :
    valueAt (line ++ c :: rest) tag (line.length + 1 + j) =
      (valueAt rest tag j).map fun v => (line.length + 1 + v.1, v.2) := by
  have hstart : valueStart (line ++ c :: rest) tag (line.length + 1 + j) =
      line.length + 1 + valueStart rest tag j := by
    unfold valueStart
    rw [Nat.add_assoc _ j, drop_line]
    omega
  have hlength : lineLength (line ++ c :: rest) (line.length + 1 + valueStart rest tag j) =
      lineLength rest (valueStart rest tag j) := by
    rw [lineLength, drop_line, lineLength]
  unfold valueAt
  rw [hstart, hlength]
  by_cases hend : valueStart rest tag j + lineLength rest (valueStart rest tag j) < rest.length
  · rw [if_pos hend, if_pos (by rw [List.length_append, List.length_cons]; omega)]
    rfl
  · rw [if_neg hend, if_neg (by rw [List.length_append, List.length_cons]; omega)]
    rfl

lemma slice_rest (v : ℕ × ℕ) :
    slice (line ++ c :: rest) (line.length + 1 + v.1, v.2) = slice rest v := by
  rw [slice, drop_line, slice]

/-- A tag without line ends at the start of a line is in the line. -/
lemma prefix_line_iff (heol : ∀ c ∈ tag, isEol c = false) (hc : isEol c) :
    tag <+: line ++ c :: rest ↔ tag <+: line := by
  refine ⟨fun h => ?_, fun h => h.trans (List.prefix_append _ _)⟩
  rcases List.prefix_or_prefix_of_prefix h (List.prefix_append line (c :: rest)) with
    hline | ⟨t, rfl⟩
  · exact hline
  · cases t with
    | nil => simp
    | cons d t =>
      -- the tag would reach the end of the line
      obtain ⟨rfl, -⟩ := List.cons_prefix_cons.mp ((List.prefix_append_right_inj line).mp h)
      rw [heol d (by simp)] at hc
      exact absurd hc (by decide)

/-- Inside a line no line starts. -/
lemma not_tagAt_line (hline : ∀ c ∈ line, isEol c = false) {i : ℕ} (hpos : i ≠ 0)
    (hi : i ≤ line.length) : ¬TagAt (line ++ c :: rest) tag i := by
  rintro ⟨-, hstart⟩
  have hlast := hstart.resolve_left hpos
  have hmem : (line ++ c :: rest).getD (i - 1) 0 ∈ line :=
    getD_mem_of_isPre (i := 0) (List.prefix_append _ _) (Nat.zero_le (i - 1)) (by omega)
  rw [hline _ hmem] at hlast
  exact absurd hlast (by decide)

/-- The value of a tag at the start of a line with an end. -/
lemma valueAt_line (hline : ∀ c ∈ line, isEol c = false) (hc : isEol c) (htag : tag <+: line) :
    (valueAt (line ++ c :: rest) tag 0).map (slice (line ++ c :: rest)) =
      some (lineValue tag line) := by
  obtain ⟨x, rfl⟩ := htag
  obtain ⟨blanks, hblanks⟩ : ∃ z, z = x.takeWhile (· = 32) := ⟨_, rfl⟩
  obtain ⟨y, hy⟩ : ∃ y, y = x.dropWhile (· = 32) := ⟨_, rfl⟩
  have hx : x = blanks ++ y := by rw [hblanks, hy, List.takeWhile_append_dropWhile]
  have hblank : decide (c = 32) = false := by
    rw [decide_eq_false_iff_not]
    rintro rfl
    exact absurd hc (by decide)
  have hyline : ∀ d ∈ y, (!isEol d) = true := by
    intro d hd
    rw [hline d (List.mem_append_right _ (hx ▸ List.mem_append_right _ hd))]
    rfl
  have hstart : valueStart (tag ++ x ++ c :: rest) tag 0 = tag.length + blanks.length := by
    rw [valueStart, Nat.zero_add, List.append_assoc, List.drop_left,
      takeWhile_append_cons _ _ hblank, hblanks]
  have hdrop : (tag ++ x ++ c :: rest).drop (tag.length + blanks.length) = y ++ c :: rest := by
    rw [List.append_assoc, List.drop_length_add_append, hx, List.append_assoc, List.drop_left]
  have hlength : lineLength (tag ++ x ++ c :: rest) (tag.length + blanks.length) = y.length := by
    rw [lineLength, hdrop, takeWhile_append_cons _ _ (by rw [hc]; rfl),
      List.takeWhile_eq_self_iff.mpr hyline]
  have hend : tag.length + blanks.length + y.length < (tag ++ x ++ c :: rest).length := by
    simp only [hx, List.length_append, List.length_cons]
    omega
  rw [valueAt, hstart, hlength, if_pos hend, Option.map_some, slice, hdrop, List.take_left,
    lineValue, List.drop_left, hy]

end Line

/-- A text without line ends has no value. -/
lemma valueAt_unterminated (hline : ∀ c ∈ buf, isEol c = false) (tag : Bytes) :
    valueAt buf tag 0 = none ∧ ∀ i, TagAt buf tag i → i = 0 := by
  constructor
  · have hall : lineLength buf (valueStart buf tag 0) = buf.length - valueStart buf tag 0 := by
      rw [lineLength, List.takeWhile_eq_self_iff.mpr, List.length_drop]
      intro d hd
      rw [hline d (List.mem_of_mem_drop hd)]
      rfl
    rw [valueAt, if_neg (by omega)]
  · rintro i ⟨-, hstart⟩
    by_contra hpos
    have hlast := hstart.resolve_left hpos
    by_cases hi : i - 1 < buf.length
    · have hmem := getD_mem_of_isPre (i := 0) (List.prefix_refl (buf.drop 0)) (Nat.zero_le (i - 1))
        (by simpa using hi)
      rw [hline _ (List.mem_of_mem_drop hmem)] at hlast
      exact absurd hlast (by decide)
    · rw [List.getD_eq_getElem?_getD, List.getElem?_eq_none (by omega)] at hlast
      exact absurd hlast (by decide)

/-- The value at the first position of a tag is that of the first terminated line with the tag. -/
lemma valueAt_first (heol : ∀ c ∈ tag, isEol c = false) (buf : Bytes) :
    ((∀ i, ¬TagAt buf tag i) ∧ taggedValue tag (lines buf).dropLast = none) ∨
      ∃ i, TagAt buf tag i ∧ (∀ j < i, ¬TagAt buf tag j) ∧
        (valueAt buf tag i).map (slice buf) = taggedValue tag (lines buf).dropLast := by
  induction hn : buf.length using Nat.strong_induction_on generalizing buf with
  | _ n ih =>
    rcases exists_line buf with hline | ⟨line, c, rest, rfl, hline, hc⟩
    · obtain ⟨hnone, hzero⟩ := valueAt_unterminated hline tag
      have hvalue : taggedValue tag (lines buf).dropLast = none := by
        rw [lines_of_forall hline]
        rfl
      rw [hvalue]
      by_cases hat : TagAt buf tag 0
      · exact Or.inr ⟨0, hat, by simp, by rw [hnone]; rfl⟩
      · exact Or.inl ⟨fun i hi => hat (hzero i hi ▸ hi), rfl⟩
    · rw [dropLast_lines_line hline hc, taggedValue_cons]
      by_cases hat : tag <+: line
      · refine Or.inr ⟨0, ⟨(prefix_line_iff heol hc).mpr hat, Or.inl rfl⟩, by simp, ?_⟩
        rw [valueAt_line hline hc hat, if_pos hat]
      · rw [if_neg hat]
        have hbefore : ∀ j, j ≤ line.length → ¬TagAt (line ++ c :: rest) tag j := by
          intro j hj hjt
          by_cases hpos : j = 0
          · subst hpos
            exact hat ((prefix_line_iff heol hc).mp hjt.1)
          · exact not_tagAt_line hline hpos hj hjt
        have hlt : rest.length < n := by
          rw [← hn, List.length_append, List.length_cons]
          omega
        rcases ih rest.length hlt rest rfl with ⟨hno, hvalue⟩ | ⟨i, hi, hfirst, hvalue⟩
        · left
          refine ⟨fun j hj => ?_, hvalue⟩
          by_cases hle : j ≤ line.length
          · exact hbefore j hle hj
          · obtain ⟨k, rfl⟩ := Nat.exists_eq_add_of_lt (not_le.mp hle)
            rw [Nat.add_right_comm] at hj
            exact hno k ((tagAt_rest_iff hc k).mp hj)
        · right
          refine ⟨line.length + 1 + i, (tagAt_rest_iff hc i).mpr hi, fun j hj hjt => ?_, ?_⟩
          · by_cases hle : j ≤ line.length
            · exact hbefore j hle hjt
            · obtain ⟨k, rfl⟩ := Nat.exists_eq_add_of_lt (not_le.mp hle)
              rw [Nat.add_right_comm] at hjt hj
              exact hfirst k (by omega) ((tagAt_rest_iff hc k).mp hjt)
          · rw [valueAt_rest, Option.map_map, ← hvalue]
            exact Option.map_congr fun v _ => slice_rest v

lemma slice_buffer {s : Bytes} {len : ℕ} {v : ℕ × ℕ} (h : v.1 + v.2 ≤ (buffer s len).length) :
    slice (buffer s len) v = slice s v := by
  obtain ⟨rest, hrest⟩ := buffer_prefix_self s len
  have hdrop : v.1 ≤ (buffer s len).length := by omega
  have htake : v.2 ≤ ((buffer s len).drop v.1).length := by
    rw [List.length_drop]
    omega
  calc slice (buffer s len) v = ((buffer s len).drop v.1 ++ rest).take v.2 :=
        (List.take_append_of_le_length htake).symm
    _ = slice s v := by rw [← List.drop_append_of_le_length hdrop, hrest, slice]

/-- **`gettag` and the lines.**  The value that `gettag` finds is that of the first terminated line
with the tag. -/
theorem map_slice_gettag (hne : tag ≠ []) (heol : ∀ c ∈ tag, isEol c = false) (s : Bytes)
    (len : ℕ) :
    (gettag s len tag).map (slice s) = taggedValue tag (lines (buffer s len)).dropLast := by
  rcases valueAt_first heol (buffer s len) with ⟨hno, hvalue⟩ | ⟨i, hi, hfirst, hvalue⟩
  · rw [gettag_of_none hno, hvalue]
    rfl
  · rw [gettag_of_first hne heol hi hfirst, ← hvalue]
    refine Option.map_congr fun v hv => (slice_buffer ?_).symm
    unfold valueAt at hv
    split at hv
    · rename_i hend
      obtain rfl := Option.mem_some_iff.mp hv
      exact hend.le
    · simp at hv

/-- The terminated lines of a text are the first ones of every longer text. -/
lemma dropLast_lines_prefix (a b : Bytes) : (lines a).dropLast <+: (lines (a ++ b)).dropLast := by
  induction hn : a.length using Nat.strong_induction_on generalizing a with
  | _ n ih =>
    rcases exists_line a with hline | ⟨line, c, rest, rfl, hline, hc⟩
    · rw [lines_of_forall hline]
      exact List.nil_prefix
    · have hlt : rest.length < n := by
        rw [← hn, List.length_append, List.length_cons]
        omega
      rw [List.append_assoc, List.cons_append, dropLast_lines_line hline hc,
        dropLast_lines_line hline hc]
      exact List.cons_prefix_cons.mpr ⟨rfl, ih rest.length hlt rest rfl⟩

/-- Behind a value the line ends. -/
lemma drop_of_gettag (hne : tag ≠ []) (heol : ∀ c ∈ tag, isEol c = false) {s : Bytes} {len : ℕ}
    {v : ℕ × ℕ} (h : gettag s len tag = some v) :
    ∃ c rest, s.drop v.1 = slice s v ++ c :: rest ∧ isEol c := by
  obtain ⟨p, -, hvalue⟩ := (gettag_eq_some_iff hne heol).mp h
  obtain ⟨-, ⟨-, hin, hend⟩, -⟩ := valueAt_eq_some_iff.mp hvalue
  have hs : v.1 + v.2 < s.length := hin.trans_le (buffer_prefix_self s len).length_le
  have hget : (buffer s len).getD (v.1 + v.2) 0 = s[v.1 + v.2] := by
    rw [List.getD_eq_getElem?_getD, getElem?_buffer hin, List.getElem?_eq_getElem hs,
      Option.getD_some]
  rw [hget] at hend
  refine ⟨s[v.1 + v.2], s.drop (v.1 + v.2 + 1), ?_, hend⟩
  rw [slice, ← List.drop_eq_getElem_cons hs, ← List.drop_drop, List.take_append_drop]

end PcapSipDump
