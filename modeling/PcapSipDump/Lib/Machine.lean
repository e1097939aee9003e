import Mathlib.Data.List.Chain
import Mathlib.Data.List.Infix
import Mathlib.Order.Bounds.Basic
import Mathlib.Order.MinMax

/-!
# Runs of a deterministic machine

A machine has a total transition function and a predicate that says which inputs may come in
which state.  This file fixes the vocabulary in which whole runs are spoken about: the state
reached by a word of inputs (`run`), a condition met by every step of a run (`Along`), and a
property of every state on the way (`Always`).  The two main rules are

* `Machine.run_of_along`: a property preserved by every step that meets a condition holds at
  the end of every run whose steps all meet it;
* `Machine.along_iff_along`: two conditions that agree under an invariant agree along runs;
* `Machine.Reaches`: one machine's step as a run of another one;
* `Machine.always_iff_along`: where one step keeps a property *exactly* when it meets a
  condition, a run keeps the property exactly when all its steps meet the condition;
* `Machine.lockstep_iff_along`: two machines that take the same step exactly when a condition
  holds are in related states all the way exactly when the condition holds along the run;
* `Machine.run_iff_since`: where some steps make a property true and others end it, it holds
  after a run exactly when some step has made it true and no later one has ended it;
* `Machine.run_iff_sometime`: the same for a property that no step ends;
* `Machine.explained_iff_along`: where a step can also make such a property true for another
  reason, the property is explained in this way in all states exactly when no step does that;
* `Machine.run_isGreatest`: a size that steps only raise, to a measure of the new state, is the
  largest measure of the states so far;
* `Machine.isChain_outputs_iff_along`: where the state keeps the last output, each output of a run
  is related to the one before exactly when each step's output is related to what the state keeps.
-/

namespace Lib

/-- A deterministic machine on states `σ` with inputs `α`. -/
structure Machine (σ α : Type*) where
  /-- The state after an input. -/
  next : σ → α → σ
  /-- The inputs that may come in a state. -/
  allowed : σ → α → Prop

namespace Machine

variable {σ α : Type*} (M : Machine σ α)

/-- The state reached from `s` by a word of inputs. -/
def run (s : σ) (as : List α) : σ := as.foldl M.next s

/-- Every input of the word meets `C` in the state in which it comes. -/
def Along (C : σ → α → Prop) : σ → List α → Prop
  | _, [] => True
  | s, a :: as => C s a ∧ Along C (M.next s a) as

/-- Every state on the way, the first and the last included, satisfies `P`. -/
def Always (P : σ → Prop) : σ → List α → Prop
  | s, [] => P s
  | s, a :: as => P s ∧ Always P (M.next s a) as

/-- A word of inputs is legal from a state when each input is allowed where it comes. -/
def Legal (s : σ) (as : List α) : Prop := M.Along M.allowed s as

@[simp] lemma run_nil (s : σ) : M.run s [] = s := rfl

@[simp] lemma run_cons (s : σ) (a : α) (as : List α) :
    M.run s (a :: as) = M.run (M.next s a) as := rfl

@[simp] lemma run_append (s : σ) (as bs : List α) :
    M.run s (as ++ bs) = M.run (M.run s as) bs := by
  simp [run]

variable {C D : σ → α → Prop} {P : σ → Prop}

@[simp] lemma along_nil (s : σ) : M.Along C s [] := trivial

@[simp] lemma along_cons {s : σ} {a : α} {as : List α} :
    M.Along C s (a :: as) ↔ C s a ∧ M.Along C (M.next s a) as := Iff.rfl

instance decidableAlong [∀ s a, Decidable (C s a)] : ∀ s as, Decidable (M.Along C s as)
  | _, [] => isTrue trivial
  | s, a :: as =>
      have := decidableAlong (M.next s a) as
      inferInstanceAs (Decidable (C s a ∧ M.Along C (M.next s a) as))

instance [∀ s a, Decidable (M.allowed s a)] (s : σ) (as : List α) : Decidable (M.Legal s as) :=
  inferInstanceAs (Decidable (M.Along M.allowed s as))

lemma along_append {s : σ} {as bs : List α} :
    M.Along C s (as ++ bs) ↔ M.Along C s as ∧ M.Along C (M.run s as) bs := by
  induction as generalizing s with
  | nil => simp
  | cons a as ih => simp [ih, and_assoc]

lemma legal_append {s : σ} {as bs : List α} :
    M.Legal s (as ++ bs) ↔ M.Legal s as ∧ M.Legal (M.run s as) bs :=
  M.along_append

/-- A condition on the inputs alone. -/
lemma along_of_forall {E : α → Prop} {s : σ} {as : List α} (h : ∀ a ∈ as, E a) :
    M.Along (fun _ a => E a) s as := by
  induction as generalizing s with
  | nil => trivial
  | cons a as ih => exact ⟨h a (by simp), ih fun b hb => h b (by simp [hb])⟩

/-- Where every input is allowed, every word is legal. -/
lemma legal_of_forall (h : ∀ s a, M.allowed s a) (s : σ) (as : List α) : M.Legal s as := by
  induction as generalizing s with
  | nil => trivial
  | cons a as ih => exact ⟨h s a, ih (M.next s a)⟩

variable {M}

lemma Along.and {s : σ} {as : List α} (hC : M.Along C s as) (hD : M.Along D s as) :
    M.Along (fun s a => C s a ∧ D s a) s as := by
  induction as generalizing s with
  | nil => trivial
  | cons a as ih => exact ⟨⟨hC.1, hD.1⟩, ih hC.2 hD.2⟩

lemma Along.imp {s : σ} {as : List α} (hC : M.Along C s as) (h : ∀ s a, C s a → D s a) :
    M.Along D s as := by
  induction as generalizing s with
  | nil => trivial
  | cons a as ih => exact ⟨h s a hC.1, ih hC.2⟩

/-- A property that every step meeting `C` preserves holds at the end of a run all of whose
steps meet `C`. -/
theorem run_of_along (hstep : ∀ s a, C s a → P s → P (M.next s a)) {s : σ} {as : List α}
    (h : M.Along C s as) (hs : P s) : P (M.run s as) := by
  induction as generalizing s with
  | nil => exact hs
  | cons a as ih => exact ih h.2 (hstep s a h.1 hs)

/-- A property that the steps on inputs of one kind preserve holds all along runs on such inputs. -/
lemma along_of_invariant {E : α → Prop} (hstep : ∀ s a, E a → P s → P (M.next s a)) {s : σ}
    {as : List α} (h : ∀ a ∈ as, E a) (hs : P s) : M.Along (fun s a => P s ∧ E a) s as := by
  induction as generalizing s with
  | nil => trivial
  | cons a as ih =>
    have ha := h a (by simp)
    exact ⟨⟨hs, ha⟩, ih (fun b hb => h b (by simp [hb])) (hstep s a ha hs)⟩

/-- A property that every step preserves holds at the end of every run. -/
lemma run_invariant (hstep : ∀ s a, P s → P (M.next s a)) {s : σ} (hs : P s) (as : List α) :
    P (M.run s as) := by
  induction as generalizing s with
  | nil => exact hs
  | cons a as ih => exact ih (hstep s a hs)

lemma Always.head {s : σ} {as : List α} (h : M.Always P s as) : P s := by
  cases as with
  | nil => exact h
  | cons a as => exact h.1

/-- `Always` speaks about the states reached by the prefixes of the word. -/
lemma always_iff_prefix {s : σ} {as : List α} :
    M.Always P s as ↔ ∀ pre, pre <+: as → P (M.run s pre) := by
  induction as generalizing s with
  | nil => simp [Always]
  | cons a as ih =>
    simp only [Always, ih]
    constructor
    · rintro ⟨hs, h⟩ pre hpre
      cases pre with
      | nil => exact hs
      | cons b pre =>
        obtain ⟨rfl, hpre'⟩ := List.cons_prefix_cons.mp hpre
        exact h pre hpre'
    · intro h
      exact ⟨h [] List.nil_prefix,
        fun pre hpre => h (a :: pre) (List.cons_prefix_cons.mpr ⟨rfl, hpre⟩)⟩

/-- **The exact-condition rule.**  If legal steps keep `P` exactly when they meet `C`, under an
invariant `I` that the steps meeting `C` preserve, then a legal run keeps `P` in all its states
exactly when all its steps meet `C`. -/
theorem always_iff_along {I : σ → Prop}
    (hI : ∀ s a, M.allowed s a → I s → P s → C s a → I (M.next s a))
    (hP : ∀ s a, M.allowed s a → I s → P s → (P (M.next s a) ↔ C s a))
    {s : σ} {as : List α} (hleg : M.Legal s as) (hIs : I s) (hPs : P s) :
    M.Always P s as ↔ M.Along C s as := by
  induction as generalizing s with
  | nil => exact ⟨fun _ => trivial, fun _ => hPs⟩
  | cons a as ih =>
    have hstep := hP s a hleg.1 hIs hPs
    constructor
    · -- the next state has the property, so the step meets the condition
      rintro ⟨-, h⟩
      have hC := hstep.mp h.head
      exact ⟨hC, (ih hleg.2 (hI s a hleg.1 hIs hPs hC) h.head).mp h⟩
    · rintro ⟨hC, h⟩
      exact ⟨hPs, (ih hleg.2 (hI s a hleg.1 hIs hPs hC) (hstep.mpr hC)).mpr h⟩

/-- Two conditions on steps that agree in the states of an invariant, which steps meeting the
first one preserve, hold along the same legal runs. -/
theorem along_iff_along {I : σ → Prop}
    (hI : ∀ s a, M.allowed s a → I s → C s a → I (M.next s a))
    (hCD : ∀ s a, M.allowed s a → I s → (D s a ↔ C s a))
    {s : σ} {as : List α} (hleg : M.Legal s as) (hIs : I s) :
    M.Along D s as ↔ M.Along C s as := by
  induction as generalizing s with
  | nil => exact Iff.rfl
  | cons a as ih =>
    constructor
    · rintro ⟨hD, h⟩
      have hC := (hCD s a hleg.1 hIs).mp hD
      exact ⟨hC, (ih hleg.2 (hI s a hleg.1 hIs hC)).mp h⟩
    · rintro ⟨hC, h⟩
      exact ⟨(hCD s a hleg.1 hIs).mpr hC, (ih hleg.2 (hI s a hleg.1 hIs hC)).mpr h⟩

/-- **The rule of two runs.**  If two machines take the same step where `C` holds, and come to
states that are not related where it does not, under an invariant `I`, then their runs on a word
are related all the way exactly when `C` holds along it. -/
theorem lockstep_iff_along {N : Machine σ α} {R : σ → σ → Prop} {I : σ → Prop}
    (hrefl : ∀ s, R s s) (hI : ∀ s a, I s → I (M.next s a))
    (hsame : ∀ s a, I s → C s a → N.next s a = M.next s a)
    (hdiff : ∀ s a, I s → ¬C s a → ¬R (M.next s a) (N.next s a))
    {s : σ} {as : List α} (hIs : I s) :
    (∀ pre, pre <+: as → R (M.run s pre) (N.run s pre)) ↔ M.Along C s as := by
  induction as generalizing s with
  | nil =>
    refine iff_of_true (fun pre hpre => ?_) trivial
    rw [List.prefix_nil.mp hpre]
    exact hrefl s
  | cons a as ih =>
    constructor
    · intro h
      have hfirst := h [a] (List.cons_prefix_cons.mpr ⟨rfl, List.nil_prefix⟩)
      have hC : C s a := by
        by_contra hno
        exact hdiff s a hIs hno hfirst
      refine ⟨hC, (ih (hI s a hIs)).mp fun pre hpre => ?_⟩
      have hcons := h (a :: pre) (List.cons_prefix_cons.mpr ⟨rfl, hpre⟩)
      rwa [run_cons, run_cons, hsame s a hIs hC] at hcons
    · rintro ⟨hC, h⟩ pre hpre
      cases pre with
      | nil => exact hrefl s
      | cons b pre =>
        obtain ⟨rfl, hpre'⟩ := List.cons_prefix_cons.mp hpre
        rw [run_cons, run_cons, hsame s b hIs hC]
        exact (ih (hI s b hIs)).mpr h pre hpre'

variable (M) in
/-- Some step of the run meets `W`, and no later one meets `T`. -/
def Since (W T : σ → α → Prop) (s : σ) (as : List α) : Prop :=
  ∃ pre a post, as = pre ++ a :: post ∧ W (M.run s pre) a ∧
    M.Along (fun s a => ¬T s a) (M.next (M.run s pre) a) post

lemma since_nil {W T : σ → α → Prop} {s : σ} : ¬M.Since W T s [] := by
  rintro ⟨pre, a, post, h, -⟩
  simp at h

lemma since_cons {W T : σ → α → Prop} {s : σ} {a : α} {as : List α} :
    M.Since W T s (a :: as) ↔
      (W s a ∧ M.Along (fun s a => ¬T s a) (M.next s a) as) ∨ M.Since W T (M.next s a) as := by
  constructor
  · rintro ⟨pre, b, post, h, hW, hT⟩
    cases pre with
    | nil =>
      obtain ⟨rfl, rfl⟩ := List.cons.inj h
      exact Or.inl ⟨hW, hT⟩
    | cons c pre =>
      obtain ⟨rfl, rfl⟩ := List.cons.inj h
      exact Or.inr ⟨pre, b, post, rfl, hW, hT⟩
  · rintro (⟨hW, hT⟩ | ⟨pre, b, post, rfl, hW, hT⟩)
    · exact ⟨[], a, as, rfl, hW, hT⟩
    · exact ⟨a :: pre, b, post, rfl, hW, hT⟩

/-- What holds after a run although only some steps make it true has been made true by one of them
and not been ended since, or it held from the start. -/
theorem since_of_run {W T : σ → α → Prop} {I : σ → Prop}
    (hI : ∀ s a, I s → I (M.next s a))
    (hP : ∀ s a, I s → P (M.next s a) → W s a ∨ ¬T s a ∧ P s)
    {s : σ} {as : List α} (hIs : I s) (h : P (M.run s as)) :
    M.Since W T s as ∨ M.Along (fun s a => ¬T s a) s as ∧ P s := by
  induction as generalizing s with
  | nil => exact Or.inr ⟨trivial, h⟩
  | cons a as ih =>
    rcases ih (hI s a hIs) h with hS | ⟨hT, hP'⟩
    · exact Or.inl (since_cons.mpr (Or.inr hS))
    · rcases hP s a hIs hP' with hW | ⟨hTa, hPs⟩
      · exact Or.inl (since_cons.mpr (Or.inl ⟨hW, hT⟩))
      · exact Or.inr ⟨⟨hTa, hT⟩, hPs⟩

/-- **The rule of the last write.**  If a legal step ends in `P` exactly when it meets `W`, or
starts in `P` and does not meet `T`, then a legal run ends in `P` exactly when one of its steps
meets `W` and no later one meets `T`, or it starts in `P` and none of its steps meets `T`. -/
theorem run_iff_since {W T : σ → α → Prop} {I : σ → Prop}
    (hI : ∀ s a, M.allowed s a → I s → I (M.next s a))
    (hP : ∀ s a, M.allowed s a → I s → (P (M.next s a) ↔ W s a ∨ ¬T s a ∧ P s))
    {s : σ} {as : List α} (hleg : M.Legal s as) (hIs : I s) :
    P (M.run s as) ↔ M.Since W T s as ∨ M.Along (fun s a => ¬T s a) s as ∧ P s := by
  induction as generalizing s with
  | nil => simp [since_nil]
  | cons a as ih =>
    have hstep := hP s a hleg.1 hIs
    rw [run_cons, ih hleg.2 (hI s a hleg.1 hIs), since_cons, hstep, along_cons]
    tauto

lemma since_concat {W T : σ → α → Prop} {s : σ} {as : List α} {a : α} :
    M.Since W T s (as ++ [a]) ↔
      W (M.run s as) a ∨ ¬T (M.run s as) a ∧ M.Since W T s as := by
  induction as generalizing s with
  | nil =>
    have hnil : ∀ s, ¬M.Since W T s [] := fun s => since_nil
    simp only [List.nil_append, since_cons, along_nil, run_nil, hnil, and_true, and_false]
  | cons b as ih =>
    rw [List.cons_append, since_cons, ih, since_cons, along_append, run_cons, along_cons]
    simp only [along_nil, and_true]
    tauto

/-- **The rule of explained properties.**  A step that meets `W k` makes `P k` true, and one that
meets `T k` ends it; moreover a step makes `P k` true when it meets `A k`.  In all states of a run
that starts without these properties, each of them has been made true by a `W`-step and not been
ended since, exactly when no step of the run makes one true in the other way. -/
theorem explained_iff_along {κ : Type*} {W T A : κ → σ → α → Prop} {P : κ → σ → Prop}
    {I : σ → Prop} (hI : ∀ s a, I s → I (M.next s a))
    (hP : ∀ s a k, I s → (P k (M.next s a) ↔ W k s a ∨ ¬T k s a ∧ P k s ∨ A k s a))
    (hA : ∀ s a k, A k s a → ¬W k s a ∧ ¬P k s)
    {s : σ} (hIs : I s) (hs : ∀ k, ¬P k s) (as : List α) :
    (∀ pre, pre <+: as → ∀ k, P k (M.run s pre) → M.Since (W k) (T k) s pre) ↔
      M.Along (fun s a => ∀ k, ¬A k s a) s as := by
  have hrun : ∀ as, I (M.run s as) := fun as => run_invariant hI hIs as
  have hstep : ∀ as a k, P k (M.run s (as ++ [a])) ↔ W k (M.run s as) a ∨
      ¬T k (M.run s as) a ∧ P k (M.run s as) ∨ A k (M.run s as) a := by
    intro as a k
    rw [run_append]
    exact hP _ a k (hrun as)
  -- what has been made true and not been ended is true
  have hsince : ∀ as k, M.Since (W k) (T k) s as → P k (M.run s as) := by
    intro as k
    induction as using List.reverseRecOn with
    | nil => exact fun h => absurd h since_nil
    | append_singleton as a ih =>
      rw [since_concat, hstep]
      rintro (hW | ⟨hT, h⟩)
      · exact Or.inl hW
      · exact Or.inr (Or.inl ⟨hT, ih h⟩)
  induction as using List.reverseRecOn with
  | nil =>
    refine iff_of_true (fun pre hpre k hk => ?_) trivial
    rw [List.prefix_nil.mp hpre] at hk
    exact absurd hk (hs k)
  | append_singleton as a ih =>
    rw [along_append, along_cons]
    constructor
    · intro h
      refine ⟨ih.mp fun pre hpre => h pre (hpre.trans (List.prefix_append _ _)), fun k hk => ?_,
        trivial⟩
      obtain ⟨hW, hno⟩ := hA _ _ _ hk
      have hP' := (hstep as a k).mpr (Or.inr (Or.inr hk))
      rcases since_concat.mp (h _ (List.prefix_refl _) k hP') with hW' | ⟨-, hold⟩
      · exact hW hW'
      · exact hno (hsince as k hold)
    · rintro ⟨hall, hlast, -⟩ pre hpre k hk
      have h := ih.mpr hall
      rcases List.prefix_concat_iff.mp hpre with rfl | hpre
      · rcases (hstep as a k).mp hk with hW | ⟨hT, hold⟩ | hAk
        · exact since_concat.mpr (Or.inl hW)
        · exact since_concat.mpr (Or.inr ⟨hT, h as (List.prefix_refl _) k hold⟩)
        · exact absurd hAk (hlast k)
      · exact h pre hpre k hk

variable (M) in
/-- Some step of the run meets `W`. -/
def Sometime (W : σ → α → Prop) (s : σ) (as : List α) : Prop :=
  ∃ pre a post, as = pre ++ a :: post ∧ W (M.run s pre) a

/-- **The rule of the first write.**  If a legal step ends in `P` exactly when it meets `W` or
starts in `P`, then a legal run ends in `P` exactly when one of its steps meets `W` or it starts
in `P`. -/
theorem run_iff_sometime {W : σ → α → Prop} {I : σ → Prop}
    (hI : ∀ s a, M.allowed s a → I s → I (M.next s a))
    (hP : ∀ s a, M.allowed s a → I s → (P (M.next s a) ↔ W s a ∨ P s))
    {s : σ} {as : List α} (hleg : M.Legal s as) (hIs : I s) :
    P (M.run s as) ↔ M.Sometime W s as ∨ P s := by
  have hstep : ∀ s a, M.allowed s a → I s → (P (M.next s a) ↔ W s a ∨ ¬False ∧ P s) := by
    intro s a hallowed hIs
    rw [hP s a hallowed hIs, not_false_iff, true_and]
  have hall : ∀ s as, M.Along (fun _ _ => ¬False) s as := fun s as =>
    M.along_of_forall (E := fun _ => ¬False) fun _ _ => not_false
  rw [run_iff_since hI hstep hleg hIs]
  simp only [Since, Sometime, hall, and_true, true_and]

variable (M) in
/-- A word of inputs, each meeting `C` where it comes, leads from one state to another. -/
def Reaches (C : σ → α → Prop) (s t : σ) : Prop := ∃ as, M.Along C s as ∧ M.run s as = t

lemma Reaches.refl (s : σ) : M.Reaches C s s := ⟨[], trivial, rfl⟩

lemma Reaches.single {s : σ} {a : α} (h : C s a) : M.Reaches C s (M.next s a) :=
  ⟨[a], ⟨h, trivial⟩, rfl⟩

lemma Reaches.trans {s t u : σ} (h : M.Reaches C s t) (h' : M.Reaches C t u) :
    M.Reaches C s u := by
  obtain ⟨as, has, rfl⟩ := h
  obtain ⟨bs, hbs, rfl⟩ := h'
  exact ⟨as ++ bs, M.along_append.mpr ⟨has, hbs⟩, M.run_append s as bs⟩

/-- A property that every step meeting `C` preserves is preserved all the way. -/
lemma Reaches.invariant (hstep : ∀ s a, C s a → P s → P (M.next s a)) {s t : σ}
    (h : M.Reaches C s t) (hs : P s) : P t := by
  obtain ⟨as, has, rfl⟩ := h
  exact run_of_along hstep has hs

/-- **The rule of the high-water mark.**  A size that each step sets to the larger of its old value
and a measure of the new state is the largest measure of all the states so far. -/
theorem run_isGreatest {β : Type*} [LinearOrder β] {f g : σ → β}
    (hstep : ∀ s a, f (M.next s a) = max (f s) (g (M.next s a))) {s : σ}
    (hs : f s = g s) (as : List α) :
    IsGreatest {n | ∃ pre, pre <+: as ∧ n = g (M.run s pre)} (f (M.run s as)) := by
  induction as using List.reverseRecOn with
  | nil =>
    refine ⟨⟨[], List.prefix_refl _, hs⟩, ?_⟩
    rintro n ⟨pre, hpre, rfl⟩
    rw [List.prefix_nil.mp hpre]
    exact hs.ge
  | append_singleton as a ih =>
    obtain ⟨⟨pre, hpre, hmax⟩, hbound⟩ := ih
    have hrun : M.run s (as ++ [a]) = M.next (M.run s as) a := M.run_append s as [a]
    rw [hrun, hstep]
    constructor
    · rcases max_choice (f (M.run s as)) (g (M.next (M.run s as) a)) with h | h
      · exact ⟨pre, hpre.trans (List.prefix_append _ _), h.trans hmax⟩
      · exact ⟨as ++ [a], List.prefix_refl _, by rw [h, hrun]⟩
    · rintro n ⟨pre', hpre', rfl⟩
      rcases List.prefix_concat_iff.mp hpre' with rfl | hpre'
      · rw [hrun]
        exact le_max_right _ _
      · exact (hbound ⟨pre', hpre', rfl⟩).trans (le_max_left _ _)

variable (M) in
/-- What is put out in a run whose steps put out one thing or nothing. -/
def outputs {β : Type*} (f : σ → α → Option β) : σ → List α → List β
  | _, [] => []
  | s, a :: as => (f s a).toList ++ outputs f (M.next s a) as

section Outputs

variable {β : Type*} {f : σ → α → Option β} {last : σ → β} {R : β → β → Prop} {s : σ} {as : List α}

/-- **The rule of the last output.**  If the state keeps the last output, then the outputs of a run,
behind what the state keeps at its start, form a chain exactly when each output is related to what
the state keeps before it. -/
theorem isChain_outputs_iff_along
    (hlast : M.Along (fun s a => last (M.next s a) = (f s a).getD (last s)) s as) :
    (last s :: M.outputs f s as).IsChain R ↔
      M.Along (fun s a => ∀ b ∈ f s a, R (last s) b) s as := by
  induction as generalizing s with
  | nil => exact iff_of_true (List.isChain_singleton _) trivial
  | cons a as ih =>
    obtain ⟨hnext, hrest⟩ := hlast
    rw [outputs, along_cons, ← ih hrest, hnext]
    cases f s a with
    | none => simp
    | some b => simp

/-- The first output of a run is one that is possible with what the state keeps at its start. -/
lemma head?_outputs {b₀ : β} (hlast : M.Along (fun s a =>
      last (M.next s a) = (f s a).getD (last s) ∧ (last s = b₀ → ∀ b ∈ f s a, R b₀ b)) s as)
    (hs : last s = b₀) : ∀ b ∈ (M.outputs f s as).head?, R b₀ b := by
  induction as generalizing s with
  | nil => simp [outputs]
  | cons a as ih =>
    obtain ⟨⟨hnext, hfirst⟩, hrest⟩ := hlast
    rw [outputs]
    cases hf : f s a with
    | none =>
      rw [hf] at hnext
      exact ih hrest (hnext.trans hs)
    | some b =>
      rintro c hc
      obtain rfl : b = c := by simpa using hc
      exact hfirst hs b hf

end Outputs

end Machine

end Lib
