import Mathlib.Data.List.Basic

/-!
# Computations that read a memory byte by byte

A computation reads bytes at offsets that may depend on what it has read before.  Its result on a
memory is `value`, where bytes behind the end read as zero; with partial indexing it is `eval`,
which fails at the first read behind the end.  `Within n` says that all reads are below `n`.  The
rules follow the way a computation is put together, so that where it reads is a calculation.

* `eval_eq_some_iff`: on the first part of a memory a computation succeeds exactly when it reads
  within this part, and then its result is that on the whole memory;
* `value_of_within`: a computation that reads within a part has the same result whatever is behind
  it;
* `within_bind`, `within_ite`, `within_andM`, `within_orM`: what comes later reads within a bound
  in the cases in which it comes.
-/

namespace Lib

/-- A computation that reads bytes. -/
inductive Reads (α : Type) where
  | done (a : α)
  | byte (i : ℕ) (next : UInt8 → Reads α)

namespace Reads

variable {α β : Type}

/-- One computation after another. -/
def andThen : Reads α → (α → Reads β) → Reads β
  | done a, f => f a
  | byte i next, f => byte i fun b => (next b).andThen f

instance : Monad Reads where
  pure := done
  bind := andThen

/-- The byte at an offset. -/
def read (i : ℕ) : Reads UInt8 := byte i done

/-- The result on a memory whose bytes behind the end are zero. -/
def value (m : List UInt8) : Reads α → α
  | done a => a
  | byte i next => (next (m.getD i 0)).value m

/-- The result on a memory with partial indexing. -/
def eval (m : List UInt8) : Reads α → Option α
  | done a => some a
  | byte i next => m[i]? >>= fun b => (next b).eval m

/-- All reads are at offsets below `n`. -/
def Within (n : ℕ) (m : List UInt8) : Reads α → Prop
  | done _ => True
  | byte i next => i < n ∧ (next (m.getD i 0)).Within n m

/-- **Partial indexing.**  A computation succeeds on a part of the memory exactly when it reads
within the part. -/
theorem eval_eq_some_iff {front behind : List UInt8} {r : Reads α} {a : α} :
    r.eval front = some a ↔
      r.Within front.length (front ++ behind) ∧ r.value (front ++ behind) = a := by
  induction r with
  | done b => simp [eval, Within, value]
  | byte i next ih =>
    rw [eval, Within, value]
    by_cases hi : i < front.length
    · have hbyte : (front ++ behind).getD i 0 = front[i] := by
        rw [List.getD_eq_getElem?_getD, List.getElem?_append_left hi, List.getElem?_eq_getElem hi]
        rfl
      rw [List.getElem?_eq_getElem hi, hbyte, and_iff_right hi, ← ih]
      rfl
    · rw [List.getElem?_eq_none (Nat.le_of_not_lt hi)]
      simp [hi]

/-- A computation succeeds on a part of the memory exactly when it reads within the part. -/
lemma eval_ne_none_iff {front behind : List UInt8} {r : Reads α} :
    r.eval front ≠ none ↔ r.Within front.length (front ++ behind) := by
  rw [Option.ne_none_iff_exists']
  simp only [@eval_eq_some_iff _ _ behind, exists_and_left, exists_eq', and_true]

/-- **What is read within a part** does not depend on what is behind it. -/
theorem value_of_within {front behind : List UInt8} {r : Reads α}
    (h : r.Within front.length (front ++ behind)) (other : List UInt8) :
    r.value (front ++ other) = r.value (front ++ behind) :=
  (eval_eq_some_iff.mp (eval_eq_some_iff.mpr ⟨h, rfl⟩)).2

/-! ### Rules -/

variable {n : ℕ} {m : List UInt8}

@[simp] lemma value_pure (a : α) : (pure a : Reads α).value m = a := rfl

@[simp] lemma within_pure (a : α) : (pure a : Reads α).Within n m := trivial

@[simp] lemma value_read (i : ℕ) : (read i).value m = m.getD i 0 := rfl

@[simp] lemma within_read (i : ℕ) : (read i).Within n m ↔ i < n :=
  and_iff_left trivial

@[simp] lemma value_bind (r : Reads α) (f : α → Reads β) :
    (r >>= f).value m = (f (r.value m)).value m := by
  induction r with
  | done a => rfl
  | byte i next ih => exact ih (m.getD i 0)

@[simp] lemma within_bind (r : Reads α) (f : α → Reads β) :
    (r >>= f).Within n m ↔ r.Within n m ∧ (f (r.value m)).Within n m := by
  induction r with
  | done a => exact (and_iff_right trivial).symm
  | byte i next ih => exact (and_congr_right' (ih (m.getD i 0))).trans and_assoc.symm

lemma value_ite (c : Prop) [Decidable c] (a b : Reads α) :
    (if c then a else b).value m = if c then a.value m else b.value m := by
  split <;> rfl

lemma within_ite (c : Prop) [Decidable c] (a b : Reads α) :
    (if c then a else b).Within n m ↔ if c then a.Within n m else b.Within n m := by
  split <;> rfl

@[simp] lemma value_andM (a b : Reads Bool) : (a <&&> b).value m = (a.value m && b.value m) := by
  rw [andM, value_bind]
  cases a.value m <;> rfl

/-- The second test is made only if the first one succeeds. -/
@[simp] lemma within_andM (a b : Reads Bool) :
    (a <&&> b).Within n m ↔ a.Within n m ∧ (a.value m = true → b.Within n m) := by
  rw [andM, within_bind]
  cases a.value m
  · exact and_congr_right' (iff_of_true trivial (by simp))
  · exact and_congr_right' ⟨fun h _ => h, fun h => h rfl⟩

@[simp] lemma value_orM (a b : Reads Bool) : (a <||> b).value m = (a.value m || b.value m) := by
  rw [orM, value_bind]
  cases a.value m <;> rfl

/-- The second test is made only if the first one fails. -/
@[simp] lemma within_orM (a b : Reads Bool) :
    (a <||> b).Within n m ↔ a.Within n m ∧ (a.value m = false → b.Within n m) := by
  rw [orM, within_bind]
  cases a.value m
  · exact and_congr_right' ⟨fun h _ => h, fun h => h rfl⟩
  · exact and_congr_right' (iff_of_true trivial (by simp))

end Reads

end Lib
