import Mathlib.Data.List.Basic

/-!
# Steps with keys

A list of steps, each of which may fail, where steps with different keys may change places.  What
comes of the list depends on the order of the steps with the same key only
(`KeysCommute.foldlM_eq`).
-/

namespace Lib

variable {σ α κ : Type*} {key : α → κ} {step : σ → α → Option σ} {a : α} {as bs : List α} {s : σ}

/-- Steps with different keys may change places. -/
def KeysCommute (key : α → κ) (step : σ → α → Option σ) : Prop :=
  ∀ s a b, key a ≠ key b → (step s a).bind (step · b) = (step s b).bind (step · a)

/-- A step may be made before others with other keys. -/
lemma KeysCommute.foldlM_append_cons (h : KeysCommute key step) (has : ∀ b ∈ as, key b ≠ key a)
    (s : σ) : (as ++ a :: bs).foldlM step s = (a :: (as ++ bs)).foldlM step s := by
  induction as generalizing s with
  | nil => rfl
  | cons b as ih =>
    obtain ⟨hb, has⟩ := List.forall_mem_cons.mp has
    have hswap := congrArg (Option.bind · fun t => (as ++ bs).foldlM step t) (h s b a hb)
    simp only [Option.bind_assoc] at hswap
    calc ((b :: as) ++ a :: bs).foldlM step s
        = (step s b).bind fun t => (as ++ a :: bs).foldlM step t := rfl
      _ = (step s b).bind fun t => (a :: (as ++ bs)).foldlM step t := by
          simp only [ih has]
      _ = (a :: ((b :: as) ++ bs)).foldlM step s := hswap

variable [DecidableEq κ]

/-- **Only the order of steps with the same key matters.** -/
theorem KeysCommute.foldlM_eq (h : KeysCommute key step)
    (hsame : ∀ k, as.filter (key · = k) = bs.filter (key · = k)) (s : σ) :
    as.foldlM step s = bs.foldlM step s := by
  induction as generalizing bs s with
  | nil =>
    obtain rfl : bs = [] := by
      rw [List.eq_nil_iff_forall_not_mem]
      intro b hb
      have hno : b ∈ ([] : List α).filter (key · = key b) := by
        rw [hsame]
        exact List.mem_filter.mpr ⟨hb, decide_eq_true rfl⟩
      exact List.not_mem_nil hno
    rfl
  | cons a as ih =>
    -- the first step with this key, which is the same one, comes first in the other list too
    have hfirst := hsame (key a)
    rw [List.filter_cons_of_pos (by simp)] at hfirst
    obtain ⟨before, after, rfl, hbefore, -, -⟩ := List.filter_eq_cons_iff.mp hfirst.symm
    have hbefore' : ∀ b ∈ before, key b ≠ key a := fun b hb => by simpa using hbefore b hb
    have hrest : ∀ k, as.filter (key · = k) = (before ++ after).filter (key · = k) := by
      intro k
      have hk := hsame k
      by_cases hak : key a = k
      · have hnone : before.filter (key · = k) = [] :=
          List.filter_eq_nil_iff.mpr fun b hb => by simpa [hak] using hbefore' b hb
        rw [List.filter_cons_of_pos (by simpa using hak), List.filter_append, hnone,
          List.nil_append, List.filter_cons_of_pos (by simpa using hak)] at hk
        rw [List.filter_append, hnone, List.nil_append]
        exact (List.cons.inj hk).2
      · rwa [List.filter_cons_of_neg (by simpa using hak), List.filter_append,
          List.filter_cons_of_neg (by simpa using hak), ← List.filter_append] at hk
    rw [h.foldlM_append_cons hbefore']
    exact bind_congr fun t => ih hrest t

end Lib
