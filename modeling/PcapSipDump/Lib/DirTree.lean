import Mathlib.Data.List.Infix

/-!
# Trees of directories

A directory is the list of the names that lead to it from the root.  The directories that exist
include the root and the parent of each of them, so with a directory all its ancestors exist.  Files
are in existing directories.  A directory is made in an existing one, under a new name; `MakesAll`
says that a directory has been made with all its ancestors, and nothing else.
-/

namespace Lib

/-- The directories and the files that exist. -/
structure DirTree (α : Type*) where
  has : List α → Bool
  isFile : List α → Bool
  root : has []
  parent : ∀ d name, has (d ++ [name]) ∨ isFile (d ++ [name]) → has d
  not_both : ∀ d, isFile d → has d = false

namespace DirTree

variable {α : Type*}

lemma has_of_prefix (t : DirTree α) {d d' : List α} (h : d <+: d') (hd : t.has d') : t.has d := by
  obtain ⟨rest, rfl⟩ := h
  induction rest using List.reverseRecOn with
  | nil => rwa [List.append_nil] at hd
  | append_singleton rest name ih =>
    rw [← List.append_assoc] at hd
    exact ih (t.parent _ name (Or.inl hd))

/-- A directory is no file. -/
lemma isFile_eq_false (t : DirTree α) {d : List α} (h : t.has d) : t.isFile d = false := by
  rw [← Bool.not_eq_true]
  intro hfile
  rw [t.not_both d hfile] at h
  exact Bool.false_ne_true h

/-- What is above a file is a directory. -/
lemma has_of_prefix_isFile (t : DirTree α) {d d' : List α} (h : d <+: d') (hne : d ≠ d')
    (hfile : t.isFile d') : t.has d := by
  obtain ⟨rest, rfl⟩ := h
  obtain ⟨rest', name, rfl⟩ := (List.eq_nil_or_concat' rest).resolve_left
    fun hnil => hne (by rw [hnil, List.append_nil])
  rw [← List.append_assoc] at hfile
  exact t.has_of_prefix (List.prefix_append d rest') (t.parent _ name (Or.inr hfile))

/-- The directory `d` has been made with its ancestors, and nothing else. -/
def MakesAll (t : DirTree α) (d : List α) (t' : DirTree α) : Prop :=
  (∀ x, t'.has x ↔ t.has x ∨ x <+: d) ∧ t'.isFile = t.isFile

lemma makesAll_of_has {t : DirTree α} {d : List α} (h : t.has d) : t.MakesAll d t :=
  ⟨fun _ => ⟨Or.inl, fun hx => hx.elim id fun hprefix => t.has_of_prefix hprefix h⟩, rfl⟩

lemma MakesAll.has {t t' : DirTree α} {d : List α} (h : t.MakesAll d t') : t'.has d :=
  (h.1 d).mpr (Or.inr (List.prefix_refl d))

/-- Then no file is in the way. -/
lemma MakesAll.isFile_eq_false {t t' : DirTree α} {d x : List α} (h : t.MakesAll d t')
    (hx : x <+: d) : t.isFile x = false :=
  h.2 ▸ t'.isFile_eq_false ((h.1 x).mpr (Or.inr hx))

variable [DecidableEq α]

/-- The tree with one more directory in an existing one. -/
def insert (t : DirTree α) (d : List α) (hd : t.has d.dropLast) (hfile : t.isFile d = false) :
    DirTree α where
  has x := x = d || t.has x
  isFile := t.isFile
  root := by simp [t.root]
  parent x name h := by
    rw [Bool.or_eq_true, decide_eq_true_eq] at h ⊢
    rcases h with (rfl | h) | h
    · rw [List.dropLast_concat] at hd
      exact Or.inr hd
    · exact Or.inr (t.parent x name (Or.inl h))
    · exact Or.inr (t.parent x name (Or.inr h))
  not_both x hx := by
    rw [Bool.or_eq_false_iff, decide_eq_false_iff_not]
    refine ⟨?_, t.not_both x hx⟩
    rintro rfl
    rw [hfile] at hx
    exact Bool.false_ne_true hx

/-- Making a directory, which succeeds when nothing of that name exists and its parent does. -/
def mkdir (t : DirTree α) (d : List α) : Bool × DirTree α :=
  if h : t.isFile d = false ∧ t.has d = false ∧ t.has d.dropLast then
    (true, t.insert d h.2.2 h.1)
  else (false, t)

/-- Removing a file. -/
def unlink (t : DirTree α) (d : List α) : DirTree α where
  has := t.has
  isFile x := x ≠ d && t.isFile x
  root := t.root
  parent x name h := by
    refine t.parent x name (h.imp id fun hfile => ?_)
    rw [Bool.and_eq_true] at hfile
    exact hfile.2
  not_both x hx := by
    rw [Bool.and_eq_true] at hx
    exact t.not_both x hx.2

lemma mkdir_fst (t : DirTree α) (d : List α) : (t.mkdir d).1 = true ↔
    t.isFile d = false ∧ t.has d = false ∧ t.has d.dropLast := by
  rw [mkdir]
  split <;> simp_all

lemma isFile_mkdir (t : DirTree α) (d : List α) : (t.mkdir d).2.isFile = t.isFile := by
  rw [mkdir]
  split <;> rfl

lemma has_of_mkdir (t : DirTree α) {d x : List α} (h : t.has x) : (t.mkdir d).2.has x := by
  rw [mkdir]
  split
  · exact Bool.or_eq_true_iff.mpr (Or.inr h)
  · exact h

/-- A directory that has been made is there. -/
lemma has_of_mkdir_fst (t : DirTree α) {d : List α} (h : (t.mkdir d).1) : (t.mkdir d).2.has d := by
  rw [mkdir] at h ⊢
  split at h
  · rename_i hnew
    rw [dif_pos hnew]
    exact Bool.or_eq_true_iff.mpr (Or.inl (decide_eq_true rfl))
  · cases h

/-- One more directory, behind a part that has been made with its ancestors. -/
lemma MakesAll.mkdir {t t' : DirTree α} {d : List α} (h : t.MakesAll d t') {name : α}
    (hnew : t.has (d ++ [name]) = false) (hfile : t.isFile (d ++ [name]) = false) :
    (t'.mkdir (d ++ [name])).1 = true ∧ t.MakesAll (d ++ [name]) (t'.mkdir (d ++ [name])).2 := by
  have hlong : ¬d ++ [name] <+: d := by
    intro hprefix
    have hle := hprefix.length_le
    rw [List.length_append, List.length_singleton] at hle
    omega
  have hnew' : t'.has (d ++ [name]) = false := by
    rw [← Bool.not_eq_true, h.1]
    rintro (hold | hprefix)
    · rw [hnew] at hold
      exact Bool.false_ne_true hold
    · exact hlong hprefix
  have hparent : t'.has (d ++ [name]).dropLast := by
    rw [List.dropLast_concat]
    exact h.has
  have hfile' : t'.isFile (d ++ [name]) = false := h.2 ▸ hfile
  refine ⟨(mkdir_fst t' _).mpr ⟨hfile', hnew', hparent⟩, fun x => ?_,
    (t'.isFile_mkdir _).trans h.2⟩
  rw [DirTree.mkdir, dif_pos ⟨hfile', hnew', hparent⟩]
  show (decide (x = d ++ [name]) || t'.has x) = true ↔ _
  rw [Bool.or_eq_true, decide_eq_true_eq, h.1, List.prefix_concat_iff]
  rw [or_left_comm]

end DirTree

end Lib
