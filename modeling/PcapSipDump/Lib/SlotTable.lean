import Mathlib.Data.List.Perm.Basic
import Mathlib.Order.Lattice
import Mathlib.Tactic.Common

/-!
# Slot tables

A slot table is a list of slots, each either used or free.  Its operations are the ones of a
growing array with reuse: find the first slot that satisfies a test, take the first free slot
or append a blank one, change one slot in place, and blank every slot that is due.

Slots are read through `slotAt blank t i`, which is the blank slot outside the table, so that
statements about the table need no bounds.  The last section is about tables whose used slots
carry pairwise different keys; there the first used slot with a key is *the* slot with it.
-/

namespace Lib.SlotTable

variable {α κ : Type*} (blank : α) (used : α → Bool) (key : α → κ)

/-- The slot with index `i`; a blank one outside the table. -/
def slotAt (t : List α) (i : ℕ) : α := t.getD i blank

/-- The index of the first free slot, if there is one. -/
def firstFree (t : List α) : Option ℕ := t.findIdx? fun e => !used e

/-- The index at which a new slot is put: the first free slot, else the end of the table. -/
def allocIdx (t : List α) : ℕ := (firstFree used t).getD t.length

/-- Make room for a new slot: append a blank one when no slot is free. -/
def reserve (t : List α) : List α :=
  match firstFree used t with
  | some _ => t
  | none => t ++ [blank]

/-- Take the slot for a new entry and fill it in with `f`. -/
def alloc (f : α → α) (t : List α) : List α := (reserve blank used t).modify (allocIdx used t) f

/-- Blank every slot that is due. -/
def release (due : α → Bool) (t : List α) : List α := t.map fun e => if due e then blank else e

/-! ### Reading slots -/

lemma at_of_le {t : List α} {i : ℕ} (h : t.length ≤ i) : slotAt blank t i = blank := by
  simp [slotAt, List.getD_eq_getElem?_getD, List.getElem?_eq_none h]

lemma at_of_lt {t : List α} {i : ℕ} (h : i < t.length) : slotAt blank t i = t[i] := by
  simp [slotAt, h]

lemma at_mem {t : List α} {i : ℕ} (h : i < t.length) : slotAt blank t i ∈ t := by
  rw [at_of_lt blank h]
  exact List.getElem_mem h

lemma exists_at_of_mem {t : List α} {e : α} (h : e ∈ t) : ∃ i < t.length, slotAt blank t i = e := by
  obtain ⟨i, hi, rfl⟩ := List.mem_iff_getElem.mp h
  exact ⟨i, hi, at_of_lt blank hi⟩

lemma lt_length_of_at_ne {t : List α} {i : ℕ} (h : slotAt blank t i ≠ blank) : i < t.length := by
  by_contra hi
  exact h (at_of_le blank (Nat.le_of_not_lt hi))

/-- A change is the same as another one that gives the same element. -/
lemma modify_congr_at {t : List α} {f g : α → α} {i : ℕ}
    (h : f (slotAt blank t i) = g (slotAt blank t i)) : t.modify i f = t.modify i g := by
  refine List.ext_getElem (by simp) fun j hj hj' => ?_
  have hlt : j < t.length := by simpa using hj
  rw [List.getElem_modify, List.getElem_modify]
  split
  · rename_i hij
    subst hij
    rw [at_of_lt blank hlt] at h
    exact h
  · rfl

/-- A change that leaves the element as it is leaves the table as it is. -/
lemma modify_eq_self_of_at {t : List α} {f : α → α} {i : ℕ}
    (h : f (slotAt blank t i) = slotAt blank t i) : t.modify i f = t := by
  rw [modify_congr_at blank (g := id) h, List.modify_id]

/-- A change in place is the replacement of one element. -/
lemma modify_eq_set_at {t : List α} {f : α → α} {i : ℕ} :
    t.modify i f = t.set i (f (slotAt blank t i)) := by
  refine List.ext_getElem (by simp) fun j hj hj' => ?_
  have hlt : j < t.length := by simpa using hj
  rw [List.getElem_modify, List.getElem_set]
  split
  · rename_i hij
    subst hij
    rw [at_of_lt blank hlt]
  · rfl

lemma at_modify (t : List α) (f : α → α) (i j : ℕ) :
    slotAt blank (t.modify i f) j =
      if i = j ∧ j < t.length then f (slotAt blank t j) else slotAt blank t j := by
  by_cases hj : j < t.length
  · by_cases hij : i = j
    · simp [slotAt, List.getD_eq_getElem?_getD, hj, hij]
    · simp [slotAt, List.getD_eq_getElem?_getD, hj, hij]
  · have hle := Nat.le_of_not_lt hj
    rw [at_of_le blank (by simpa using hle), at_of_le blank hle]
    simp [hj]

lemma at_release {due : α → Bool} (hblank : due blank = false) (t : List α) (i : ℕ) :
    slotAt blank (release blank due t) i =
      if due (slotAt blank t i) then blank else slotAt blank t i := by
  by_cases hi : i < t.length
  · simp [slotAt, release, List.getD_eq_getElem?_getD, hi]
  · have hle := Nat.le_of_not_lt hi
    rw [at_of_le blank (by simpa [release] using hle), at_of_le blank hle, hblank]
    simp

/-- The slots of a table in their order. -/
lemma map_at_range (t : List α) : (List.range t.length).map (slotAt blank t) = t := by
  refine List.ext_getElem (by simp) fun i hi hi' => ?_
  rw [List.getElem_map, List.getElem_range, at_of_lt blank hi']

/-! ### Releasing twice -/

/-- What is done for each slot that is released. -/
def released {β : Type*} (due : α → Bool) (f : α → List β) (t : List α) : List β :=
  t.flatMap fun e => if due e then f e else []

section Release

variable {blank} {β : Type*} {due due' : α → Bool} (hle : ∀ e, due e → due' e)
  (hblank : due' blank = false)

include hle hblank

/-- A release absorbs an earlier one of fewer slots. -/
lemma release_release (t : List α) :
    release blank due' (release blank due t) = release blank due' t := by
  rw [release, release, release, List.map_map]
  refine List.map_congr_left fun e _ => ?_
  by_cases h : due e
  · simp [h, hle e h, hblank]
  · simp [h]

/-- Each slot is released in one of two passes, or in the second one alone. -/
lemma released_append_perm (f : α → List β) (t : List α) :
    (released due f t ++ released due' f (release blank due t)).Perm (released due' f t) := by
  have hsplit : released due' f t = t.flatMap fun e =>
      (if due e then f e else []) ++
        if due' (if due e then blank else e) then f (if due e then blank else e) else [] := by
    refine List.flatMap_congr fun e _ => ?_
    by_cases h : due e
    · simp [h, hle e h, hblank]
    · simp [h]
  rw [hsplit, released, released, release, List.flatMap_map]
  exact List.flatMap_append_perm t _ _

end Release

/-! ### Taking a slot -/

lemma allocIdx_lt_reserve (t : List α) : allocIdx used t < (reserve blank used t).length := by
  unfold allocIdx reserve firstFree
  rcases h : t.findIdx? (fun e => !used e) with _ | i
  · simp
  · obtain ⟨hi, -⟩ := List.findIdx?_eq_some_iff_getElem.mp h
    simpa using hi

/-- Reserving changes no slot: what it appends is blank. -/
@[simp] lemma at_reserve (t : List α) (i : ℕ) :
    slotAt blank (reserve blank used t) i = slotAt blank t i := by
  unfold reserve
  rcases firstFree used t with _ | j
  · rcases lt_trichotomy i t.length with h | h | h
    · simp [slotAt, List.getD_eq_getElem?_getD, List.getElem?_append_left h]
    · simp [slotAt, h]
    · rw [at_of_le blank (by rw [List.length_append]; exact h), at_of_le blank h.le]
  · rfl

lemma at_alloc (f : α → α) (t : List α) (j : ℕ) :
    slotAt blank (alloc blank used f t) j =
      if j = allocIdx used t then f (slotAt blank t j) else slotAt blank t j := by
  rw [alloc, at_modify, at_reserve]
  by_cases h : allocIdx used t = j
  · have hlt := allocIdx_lt_reserve blank used t
    rw [h] at hlt
    simp [h, hlt]
  · simp [h, Ne.symm h]

/-- A table grows only when all its slots are used: after taking a slot its size is the larger of
the old size and the number of used slots. -/
lemma length_alloc {f : α → α} (hf : used (f blank)) (t : List α) :
    (alloc blank used f t).length = max t.length ((alloc blank used f t).countP used) := by
  have hcount : (alloc blank used f t).countP used ≤ (alloc blank used f t).length :=
    List.countP_le_length
  rcases hfree : firstFree used t with _ | i
  · have hall : ∀ e ∈ t, used e := by
      simpa [firstFree] using hfree
    have halloc : alloc blank used f t = t ++ [f blank] := by
      simp [alloc, reserve, allocIdx, hfree, modify_eq_set_at blank, slotAt]
    rw [halloc, List.countP_append, List.countP_eq_length.mpr hall]
    simp [hf]
  · have hlength : (alloc blank used f t).length = t.length := by
      simp [alloc, reserve, hfree]
    rw [hlength] at hcount ⊢
    exact (max_eq_left hcount).symm

variable {blank used key}

/-- The slot taken for a new entry was free. -/
lemma used_at_allocIdx (hblank : used blank = false) (t : List α) :
    used (slotAt blank t (allocIdx used t)) = false := by
  unfold allocIdx firstFree
  rcases h : t.findIdx? (fun e => !used e) with _ | i
  · simp [at_of_le, hblank]
  · obtain ⟨hi, hu, -⟩ := List.findIdx?_eq_some_iff_getElem.mp h
    simpa [at_of_lt blank hi] using hu

/-! ### The first slot that satisfies a test -/

lemma findIdx?_eq_some_iff_at {p : α → Bool} (hp : p blank = false) {t : List α} {i : ℕ} :
    t.findIdx? p = some i ↔ p (slotAt blank t i) ∧ ∀ j < i, p (slotAt blank t j) = false := by
  rw [List.findIdx?_eq_some_iff_getElem]
  constructor
  · rintro ⟨hi, h, hlt⟩
    refine ⟨by rwa [at_of_lt blank hi], fun j hj => ?_⟩
    rw [at_of_lt blank (hj.trans hi)]
    simpa using hlt j hj
  · rintro ⟨h, hlt⟩
    have hi : i < t.length := by
      by_contra hi
      rw [at_of_le blank (Nat.le_of_not_lt hi), hp] at h
      exact absurd h (by simp)
    refine ⟨hi, by rwa [at_of_lt blank hi] at h, fun j hj => ?_⟩
    have := hlt j hj
    rw [at_of_lt blank (hj.trans hi)] at this
    simp [this]

lemma findIdx?_eq_none_iff_at {p : α → Bool} (hp : p blank = false) {t : List α} :
    t.findIdx? p = none ↔ ∀ i, p (slotAt blank t i) = false := by
  rw [List.findIdx?_eq_none_iff]
  constructor
  · intro h i
    by_cases hi : i < t.length
    · exact h _ (at_mem blank hi)
    · rw [at_of_le blank (Nat.le_of_not_lt hi), hp]
  · intro h e he
    obtain ⟨i, -, rfl⟩ := exists_at_of_mem blank he
    exact h i

/-! ### Tables with unique keys -/

variable (blank used key)

/-- Different used slots have different keys. -/
def UniqueKeys (t : List α) : Prop :=
  ∀ i j, used (slotAt blank t i) → used (slotAt blank t j) →
    key (slotAt blank t i) = key (slotAt blank t j) → i = j

/-- The slot is used and has the key `k`. -/
def hasKey [DecidableEq κ] (k : κ) (e : α) : Bool := used e && decide (key e = k)

/-- The first used slot with a key. -/
def lookup [DecidableEq κ] (k : κ) (t : List α) : Option ℕ := t.findIdx? (hasKey used key k)

variable {blank used key}

lemma uniqueKeys_nil (hblank : used blank = false) : UniqueKeys blank used key [] := by
  intro i j hi
  simp [slotAt, hblank] at hi

/-- A table in which used slots and their keys are those of another one has unique keys when
the other one has. -/
lemma UniqueKeys.of_forall {t t' : List α} (h : UniqueKeys blank used key t)
    (hle : ∀ i, used (slotAt blank t' i) →
      used (slotAt blank t i) ∧ key (slotAt blank t' i) = key (slotAt blank t i)) :
    UniqueKeys blank used key t' := by
  intro i j hi hj hij
  obtain ⟨hi', hki⟩ := hle i hi
  obtain ⟨hj', hkj⟩ := hle j hj
  exact h i j hi' hj' (hki.symm.trans (hij.trans hkj))

variable [DecidableEq κ]

lemma hasKey_blank (hblank : used blank = false) (k : κ) :
    hasKey used key k blank = false := by
  simp [hasKey, hblank]

lemma lookup_eq_none_iff (hblank : used blank = false) {k : κ} {t : List α} :
    lookup used key k t = none ↔ ∀ i, used (slotAt blank t i) → key (slotAt blank t i) ≠ k := by
  rw [lookup, findIdx?_eq_none_iff_at (hasKey_blank hblank k)]
  simp [hasKey]

lemma lookup_eq_some (hblank : used blank = false) {k : κ} {t : List α} {i : ℕ}
    (h : lookup used key k t = some i) : used (slotAt blank t i) ∧ key (slotAt blank t i) = k := by
  rw [lookup, findIdx?_eq_some_iff_at (hasKey_blank hblank k)] at h
  simpa [hasKey] using h.1

/-- With unique keys the first used slot with a key is the only one. -/
lemma UniqueKeys.lookup_eq_some_iff {t : List α} (h : UniqueKeys blank used key t)
    (hblank : used blank = false) {k : κ} {i : ℕ} :
    lookup used key k t = some i ↔ used (slotAt blank t i) ∧ key (slotAt blank t i) = k := by
  refine ⟨lookup_eq_some hblank, fun ⟨hu, hk⟩ => ?_⟩
  rw [lookup, findIdx?_eq_some_iff_at (hasKey_blank hblank k)]
  refine ⟨by simp [hasKey, hu, hk], fun j hj => ?_⟩
  by_contra hj'
  simp only [hasKey, Bool.not_eq_false, Bool.and_eq_true, decide_eq_true_eq] at hj'
  exact hj.ne (h j i hj'.1 hu (hj'.2.trans hk.symm))

/-- A new entry under a key that no used slot has keeps the keys unique. -/
lemma UniqueKeys.alloc {t : List α} (h : UniqueKeys blank used key t)
    (hblank : used blank = false) {f : α → α} {k : κ} (hnone : lookup used key k t = none)
    (hkey : key (f (slotAt blank t (allocIdx used t))) = k) :
    UniqueKeys blank used key (alloc blank used f t) := by
  rw [lookup_eq_none_iff hblank] at hnone
  intro i j hi hj hij
  rw [at_alloc] at hi hj hij
  rw [at_alloc] at hij
  by_cases hia : i = allocIdx used t <;> by_cases hja : j = allocIdx used t
  · exact hia.trans hja.symm
  · rw [if_neg hja] at hj hij
    rw [if_pos hia, hia, hkey] at hij
    exact absurd hij.symm (hnone j hj)
  · rw [if_neg hia] at hi hij
    rw [if_pos hja, hja, hkey] at hij
    exact absurd hij (hnone i hi)
  · rw [if_neg hia] at hi hij
    rw [if_neg hja] at hj hij
    exact h i j hi hj hij

/-- Looking up after a new entry: its own key gives its slot, other keys give what they gave. -/
lemma UniqueKeys.lookup_alloc {t : List α} (h : UniqueKeys blank used key t)
    (hblank : used blank = false) {f : α → α} {k : κ} (hnone : lookup used key k t = none)
    (hu : used (f (slotAt blank t (allocIdx used t))))
    (hkey : key (f (slotAt blank t (allocIdx used t))) = k) (k' : κ) :
    lookup used key k' (SlotTable.alloc blank used f t) =
      if k' = k then some (allocIdx used t) else lookup used key k' t := by
  have h' := h.alloc hblank hnone hkey
  split
  · next hk =>
    rw [h'.lookup_eq_some_iff hblank, at_alloc, if_pos rfl]
    exact ⟨hu, hkey.trans hk.symm⟩
  · next hk =>
    apply Option.ext
    intro i
    rw [h'.lookup_eq_some_iff hblank, h.lookup_eq_some_iff hblank, at_alloc]
    by_cases hi : i = allocIdx used t
    · subst hi
      simp [hu, hkey, Ne.symm hk, used_at_allocIdx hblank]
    · simp [hi]

omit [DecidableEq κ] in
/-- Blanking slots keeps the keys unique. -/
lemma UniqueKeys.release {t : List α} (h : UniqueKeys blank used key t)
    (hblank : used blank = false) {due : α → Bool} (hdue : due blank = false) :
    UniqueKeys blank used key (release blank due t) := by
  refine h.of_forall fun i hi => ?_
  rw [at_release blank hdue] at hi ⊢
  by_cases hd : due (slotAt blank t i)
  · simp [hd, hblank] at hi
  · simpa [hd] using hi

/-- Looking up after a release: what was found is still found unless its slot was due. -/
lemma UniqueKeys.lookup_release {t : List α} (h : UniqueKeys blank used key t)
    (hblank : used blank = false) {due : α → Bool} (hdue : due blank = false) (k : κ) :
    lookup used key k (SlotTable.release blank due t) =
      (lookup used key k t).filter fun i => !due (slotAt blank t i) := by
  apply Option.ext
  intro i
  rw [(h.release hblank hdue).lookup_eq_some_iff hblank, Option.filter_eq_some_iff,
    h.lookup_eq_some_iff hblank, at_release blank hdue]
  by_cases hd : due (slotAt blank t i) <;> simp [hd, hblank]

end Lib.SlotTable
