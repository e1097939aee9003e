import PcapSipDump.Lib.CString

/-!
# `strftime`

`strftime` copies ordinary characters and replaces conversion specifications, which begin with a
`%`.  Every character carries a mark, so that what is copied can be told from what is printed.
-/

namespace PcapSipDump

open Lib.CString

/-- The local time as `strftime` prints it: for what follows a `%`, how many characters of it
belong to the conversion specification, and the replacement. -/
structure Conversion where
  spec : Bytes → ℕ × Bytes
  nul_free : ∀ s, ∀ c ∈ (spec s).2, c ≠ 0

variable (conversion : Conversion)

/-- `strftime` on marked characters, of which the first `skip` belong to a specification.  Ordinary
characters are copied. -/
def strftimeFrom : List (UInt8 × Bool) → ℕ → List (UInt8 × Bool)
  | [], _ => []
  | _ :: s, skip + 1 => strftimeFrom s skip
  | (c, mark) :: s, 0 =>
      if c = 37 then
        (conversion.spec (s.map Prod.fst)).2.map (fun d => (d, false)) ++
          strftimeFrom s (conversion.spec (s.map Prod.fst)).1
      else (c, mark) :: strftimeFrom s 0

/-- The characters of a string without marks. -/
lemma map_fst_unmarked (s : Bytes) : (s.map fun c => (c, false)).map Prod.fst = s := by
  have hfst : (Prod.fst ∘ fun c : UInt8 => (c, false)) = id := rfl
  rw [List.map_map, hfst, List.map_id]

/-- `strftime`, with enough room for the result. -/
def strftime (s : Bytes) : Bytes :=
  (strftimeFrom conversion (s.map fun c => (c, false)) 0).map Prod.fst

/-- What is printed does not depend on the marks. -/
lemma map_fst_strftimeFrom (s : List (UInt8 × Bool)) (skip : ℕ) :
    (strftimeFrom conversion s skip).map Prod.fst =
      (strftimeFrom conversion (s.map fun c => (c.1, false)) skip).map Prod.fst := by
  induction s generalizing skip with
  | nil => rfl
  | cons x s ih =>
    obtain ⟨c, mark⟩ := x
    cases skip with
    | succ skip => exact ih skip
    | zero =>
      have hsame : (s.map fun c => (c.1, false)).map Prod.fst = s.map Prod.fst := by simp
      simp only [List.map_cons, strftimeFrom, hsame]
      by_cases hc : c = 37
      · rw [if_pos hc, if_pos hc, List.map_append, List.map_append, ih]
      · rw [if_neg hc, if_neg hc, List.map_cons, List.map_cons, ih]

lemma strftimeFrom_nul_free {s : List (UInt8 × Bool)} (hs : ∀ c ∈ s, c.1 ≠ 0) (skip : ℕ) :
    ∀ c ∈ strftimeFrom conversion s skip, c.1 ≠ 0 := by
  induction s generalizing skip with
  | nil => simp [strftimeFrom]
  | cons x s ih =>
    obtain ⟨c, mark⟩ := x
    obtain ⟨hc, hs⟩ := List.forall_mem_cons.mp hs
    cases skip with
    | succ skip => exact ih hs skip
    | zero =>
      rw [strftimeFrom]
      split
      · rw [List.forall_mem_append, List.forall_mem_map]
        exact ⟨conversion.nul_free _, ih hs _⟩
      · exact List.forall_mem_cons.mpr ⟨hc, ih hs 0⟩

/-! ### Without marks -/

section Plain

variable {conversion}

/-- An ordinary character is copied. -/
lemma strftime_cons {c : UInt8} (hc : c ≠ 37) (s : Bytes) :
    strftime conversion (c :: s) = c :: strftime conversion s := by
  rw [strftime, List.map_cons, strftimeFrom, if_neg hc, List.map_cons, ← strftime]

/-- A specification of one character is replaced. -/
lemma strftime_code {c : UInt8} {s text : Bytes} (hspec : conversion.spec (c :: s) = (1, text)) :
    strftime conversion (37 :: c :: s) = text ++ strftime conversion s := by
  have hfst : ((c :: s).map fun d => (d, false)).map Prod.fst = c :: s := map_fst_unmarked _
  rw [strftime, List.map_cons, strftimeFrom, if_pos rfl, hfst, hspec, List.map_append,
    List.map_cons, strftimeFrom, ← strftime, map_fst_unmarked]

lemma strftime_append {t : Bytes} (ht : 37 ∉ t) (s : Bytes) :
    strftime conversion (t ++ s) = t ++ strftime conversion s := by
  induction t with
  | nil => rfl
  | cons c t ih =>
    have hc : c ≠ 37 := fun h => ht (h ▸ List.mem_cons_self)
    have hrest : 37 ∉ t := fun h => ht (List.mem_cons_of_mem c h)
    rw [List.cons_append, strftime_cons hc, ih hrest, List.cons_append]

lemma strftime_nul_free {s : Bytes} (hs : ∀ c ∈ s, c ≠ 0) : ∀ c ∈ strftime conversion s, c ≠ 0 := by
  intro c hc
  obtain ⟨x, hx, rfl⟩ := List.mem_map.mp hc
  refine strftimeFrom_nul_free conversion (fun y hy => ?_) 0 x hx
  obtain ⟨d, hd, rfl⟩ := List.mem_map.mp hy
  exact hs d hd

end Plain

end PcapSipDump
