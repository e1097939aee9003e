import Mathlib.Data.List.Basic
import Mathlib.Tactic.Common

/-!
# The first match in an ordered list

In a list that is strictly ordered by a relation, the first element with a property is the one
with no element before it that has the property.  In any list, a match that is the only one does not
depend on the order of the list.
-/

namespace Lib

variable {α : Type*} {r : α → α → Prop} {l : List α} {p : α → Bool}

/-- Of two elements of a strictly ordered list one is before the other, unless they are equal. -/
lemma before_or_eq_or_after (hl : l.Pairwise r) {a b : α} (ha : a ∈ l) (hb : b ∈ l) :
    r a b ∨ a = b ∨ r b a := by
  induction l with
  | nil => simp at ha
  | cons c l ih =>
    obtain ⟨hc, hl'⟩ := List.pairwise_cons.mp hl
    rcases List.mem_cons.mp ha with hac | ha' <;> rcases List.mem_cons.mp hb with hbc | hb'
    · exact Or.inr (Or.inl (hac.trans hbc.symm))
    · exact Or.inl (hac ▸ hc b hb')
    · exact Or.inr (Or.inr (hbc ▸ hc a ha'))
    · exact ih hl' ha' hb'

/-- The first match is a match with no match before it. -/
theorem find?_eq_some_iff_of_pairwise (hl : l.Pairwise r) (hasymm : ∀ a b, r a b → ¬r b a)
    {b : α} : l.find? p = some b ↔ b ∈ l ∧ p b ∧ ∀ a ∈ l, r a b → p a = false := by
  have hfirst : ∀ {b}, l.find? p = some b → ∀ a ∈ l, r a b → p a = false := by
    intro b hb a ha hab
    obtain ⟨-, as, bs, rfl, has⟩ := List.find?_eq_some_iff_append.mp hb
    obtain ⟨-, hbs, -⟩ := List.pairwise_append.mp hl
    rcases List.mem_append.mp ha with ha | ha
    · simpa using has a ha
    · rcases List.mem_cons.mp ha with rfl | ha
      · exact absurd hab (hasymm a a hab)
      · exact absurd hab (hasymm b a ((List.pairwise_cons.mp hbs).1 a ha))
  constructor
  · intro hb
    exact ⟨List.mem_of_find?_eq_some hb, List.find?_some hb, hfirst hb⟩
  · rintro ⟨hb, hpb, hbefore⟩
    rcases hf : l.find? p with _ | b'
    · exact absurd hpb (List.find?_eq_none.mp hf b hb)
    · have hb' : b' ∈ l := List.mem_of_find?_eq_some hf
      have hpb' : p b' = true := List.find?_some hf
      rcases before_or_eq_or_after hl hb hb' with hlt | rfl | hlt
      · rw [hfirst hf b hb hlt] at hpb
        exact absurd hpb (by decide)
      · rfl
      · rw [hbefore b' hb' hlt] at hpb'
        exact absurd hpb' (by decide)

/-- A match that is the only one is found in every order. -/
theorem find?_eq_of_perm {l' : List α} (h : l.Perm l') (honce : (l.filter p).length ≤ 1) :
    l.find? p = l'.find? p := by
  have hfilter := h.filter p
  have hsame : l.filter p = l'.filter p := by
    rcases hl : l.filter p with _ | ⟨a, _ | ⟨b, rest⟩⟩
    · rw [hl] at hfilter
      exact (List.nil_perm.mp hfilter).symm
    · rw [hl] at hfilter
      exact List.singleton_perm.mp hfilter
    · rw [hl, List.length_cons, List.length_cons] at honce
      omega
  rw [← List.head?_filter, ← List.head?_filter, hsame]

/-- The first element with a property is the same however a list is cut at it. -/
theorem first_of_append {α : Type*} {P : α → Prop} {l r l' r' : List α} {a a' : α}
    (h : l ++ a :: r = l' ++ a' :: r') (hl : ∀ x ∈ l, ¬P x) (ha : P a) (hl' : ∀ x ∈ l', ¬P x)
    (ha' : P a') : a = a' := by
  classical
  have hfind : ∀ {l r : List α} {a : α}, (∀ x ∈ l, ¬P x) → P a →
      (l ++ a :: r).find? (fun x => decide (P x)) = some a := fun {l r a} hl ha =>
    List.find?_eq_some_iff_append.mpr ⟨by simpa using ha, l, r, rfl, by simpa using hl⟩
  have hsame := hfind (r := r) hl ha
  rw [h, hfind hl' ha'] at hsame
  exact (Option.some.inj hsame).symm

end Lib
