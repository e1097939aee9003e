import Mathlib.Data.List.Basic
import Mathlib.Data.List.Induction
import Mathlib.Data.List.Nodup
import Mathlib.Tactic.Common

/-!
# The first different elements of a list

A register with `n` places that takes each new element while a place is free holds, after a list of
elements, the first `n` different ones of them (`firstDistinct_concat`).
-/

namespace Lib

variable {α : Type*} [DecidableEq α]

/-- The first `n` different elements, in the order in which they first occur. -/
def firstDistinct (n : ℕ) (l : List α) : List α := l.eraseDups.take n

/-- The register after one more element. -/
def register (n : ℕ) (places : List α) (x : α) : List α :=
  if x ∈ places ∨ n ≤ places.length then places else places ++ [x]

lemma eraseDups_concat (l : List α) (x : α) :
    (l ++ [x]).eraseDups = if x ∈ l then l.eraseDups else l.eraseDups ++ [x] := by
  rw [List.eraseDups_append]
  by_cases hx : x ∈ l
  · rw [if_pos hx, show [x].removeAll l = [] by simp [List.removeAll, hx]]
    exact List.append_nil _
  · rw [if_neg hx, show [x].removeAll l = [x] by simp [List.removeAll, hx]]
    rfl

lemma mem_eraseDups {l : List α} {x : α} : x ∈ l.eraseDups ↔ x ∈ l := by
  induction l using List.reverseRecOn with
  | nil => rfl
  | append_singleton l y ih =>
    rw [eraseDups_concat, List.mem_append, List.mem_singleton]
    split
    · rename_i hy
      rw [ih]
      exact ⟨Or.inl, fun h => h.elim id fun hxy => hxy ▸ hy⟩
    · rw [List.mem_append, ih, List.mem_singleton]

lemma mem_of_mem_firstDistinct {n : ℕ} {l : List α} {x : α} (h : x ∈ firstDistinct n l) : x ∈ l :=
  mem_eraseDups.mp (List.mem_of_mem_take h)

/-- Nothing that occurs is missing while a place is free. -/
lemma mem_firstDistinct_of_lt {n : ℕ} {l : List α} {x : α} (hx : x ∈ l)
    (h : (firstDistinct n l).length < n) : x ∈ firstDistinct n l := by
  have hlen : l.eraseDups.length ≤ n := by
    rw [firstDistinct, List.length_take] at h
    omega
  rw [firstDistinct, List.take_of_length_le hlen]
  exact mem_eraseDups.mpr hx

/-- **The register holds the first different elements.** -/
lemma firstDistinct_concat (n : ℕ) (l : List α) (x : α) :
    firstDistinct n (l ++ [x]) = register n (firstDistinct n l) x := by
  rw [register]
  by_cases hx : x ∈ l
  · have hsame : firstDistinct n (l ++ [x]) = firstDistinct n l := by
      rw [firstDistinct, eraseDups_concat, if_pos hx, firstDistinct]
    have hfull : x ∈ firstDistinct n l ∨ n ≤ (firstDistinct n l).length :=
      (Nat.lt_or_ge (firstDistinct n l).length n).imp (mem_firstDistinct_of_lt hx) id
    rw [hsame, if_pos hfull]
  · have hnew : firstDistinct n (l ++ [x]) = (l.eraseDups ++ [x]).take n := by
      rw [firstDistinct, eraseDups_concat, if_neg hx]
    rw [hnew]
    by_cases hlen : n ≤ l.eraseDups.length
    · have hfull : n ≤ (firstDistinct n l).length := by
        rw [firstDistinct, List.length_take]
        omega
      rw [if_pos (Or.inr hfull), List.take_append_of_le_length hlen, firstDistinct]
    · -- all different elements so far have a place
      have hall : firstDistinct n l = l.eraseDups :=
        List.take_of_length_le (Nat.le_of_not_le hlen)
      rw [hall, if_neg (not_or.mpr ⟨fun h => hx (mem_eraseDups.mp h), hlen⟩),
        List.take_of_length_le]
      rw [List.length_append, List.length_singleton]
      omega

/-- A place that is taken stays as it is. -/
lemma firstDistinct_grows (n : ℕ) (l xs : List α) :
    firstDistinct n l <+: firstDistinct n (l ++ xs) := by
  induction xs using List.reverseRecOn with
  | nil => exact (List.append_nil l).symm ▸ List.prefix_rfl
  | append_singleton xs x ih =>
    rw [← List.append_assoc, firstDistinct_concat, register]
    split
    · exact ih
    · exact ih.trans (List.prefix_append _ _)

end Lib
