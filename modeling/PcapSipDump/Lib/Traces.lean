import PcapSipDump.Lib.Machine
import Mathlib.Data.List.Forall2

/-!
# What a run puts out

Each step of a machine may put out a list of things: log entries, events, answers.  This file
fixes the vocabulary for what a whole run puts out (`collect`) and the rules that lift what is
known of one step to runs:

* `Machine.log_run`: a log that every step appends its outputs to holds the outputs of the run;
* `Machine.mem_collect`: an output of a run is an output of one of its steps;
* `Machine.collect_of_append`: a property of lists that can be put behind each other is one of the
  outputs of runs when it is one of the outputs of steps;
* `Machine.collect_rel`: the same for a relation of two outputs;
* `Machine.collect_of_phase`: where the state knows how many outputs there have been, the outputs of
  a run are those of a sequence;
* `Machine.sublistForall₂_collect`: where the outputs of each step come from its input in order,
  the outputs of the run come from the word in order;
* `Machine.unwinding`: two runs whose steps keep their states related and put out the same put out
  the same;
* `Machine.feed`: a second machine that is run on what a run puts out ends in a related state.
-/

namespace Lib

section Lists

variable {β γ δ : Type*} {R : β → γ → Prop}

lemma sublistForall₂_append {l₁ l₂ : List β} {m₁ m₂ : List γ}
    (h₁ : List.SublistForall₂ R l₁ m₁) (h₂ : List.SublistForall₂ R l₂ m₂) :
    List.SublistForall₂ R (l₁ ++ l₂) (m₁ ++ m₂) := by
  obtain ⟨n₁, hn₁, hs₁⟩ := List.sublistForall₂_iff.mp h₁
  obtain ⟨n₂, hn₂, hs₂⟩ := List.sublistForall₂_iff.mp h₂
  exact List.sublistForall₂_iff.mpr ⟨n₁ ++ n₂, List.rel_append hn₁ hn₂, hs₁.append hs₂⟩

/-- What is left of the first list, rewritten, comes from the second one too. -/
lemma sublistForall₂_filter_map {S : δ → γ → Prop} {g : β → δ} {l : List β} {m : List γ}
    (h : List.SublistForall₂ R l m) (hS : ∀ x y, R x y → S (g x) y) (keep : β → Bool) :
    List.SublistForall₂ S ((l.filter keep).map g) m := by
  induction h with
  | nil => exact List.SublistForall₂.nil
  | @cons x y l m hR _ ih =>
    rw [List.filter_cons]
    split
    · exact List.SublistForall₂.cons (hS x y hR) ih
    · exact List.SublistForall₂.cons_right ih
  | cons_right _ ih => exact List.SublistForall₂.cons_right ih

/-- Where related elements have one image, the images of the first list are among those of the
second one in their order. -/
lemma sublist_map_of_sublistForall₂ {f : β → δ} {g : γ → δ} {l : List β} {m : List γ}
    (h : List.SublistForall₂ R l m) (hfg : ∀ x y, y ∈ m → R x y → f x = g y) :
    (l.map f).Sublist (m.map g) := by
  induction h with
  | nil => exact List.nil_sublist _
  | cons hR _ ih =>
    rw [List.map_cons, List.map_cons, hfg _ _ List.mem_cons_self hR]
    exact (ih fun x y hy => hfg x y (List.mem_cons_of_mem _ hy)).cons_cons _
  | cons_right _ ih => exact (ih fun x y hy => hfg x y (List.mem_cons_of_mem _ hy)).cons _

end Lists

namespace Machine

variable {σ τ α β γ δ : Type*} (M : Machine σ α)

/-- Everything that a run puts out. -/
def collect (f : σ → α → List β) : σ → List α → List β
  | _, [] => []
  | s, a :: as => f s a ++ collect f (M.next s a) as

variable {M} {f : σ → α → List β} {I : σ → Prop}

@[simp] lemma collect_nil (s : σ) : M.collect f s [] = [] := rfl

@[simp] lemma collect_cons (s : σ) (a : α) (as : List α) :
    M.collect f s (a :: as) = f s a ++ M.collect f (M.next s a) as := rfl

/-- **The rule of the log.** -/
theorem log_run {L : σ → List β} (hI : ∀ s a, I s → I (M.next s a))
    (hstep : ∀ s a, I s → L (M.next s a) = L s ++ f s a) {s : σ} (hs : I s) (as : List α) :
    L (M.run s as) = L s ++ M.collect f s as := by
  induction as generalizing s with
  | nil => exact (List.append_nil _).symm
  | cons a as ih =>
    rw [run_cons, collect_cons, ih (hI s a hs), hstep s a hs, List.append_assoc]

/-- An output of a run is an output of one of its steps. -/
lemma mem_collect {s : σ} {as : List α} {b : β} :
    b ∈ M.collect f s as ↔ ∃ pre a post, as = pre ++ a :: post ∧ b ∈ f (M.run s pre) a := by
  induction as generalizing s with
  | nil => simp
  | cons a as ih =>
    rw [collect_cons, List.mem_append, ih]
    constructor
    · rintro (h | ⟨pre, c, post, rfl, h⟩)
      · exact ⟨[], a, as, rfl, h⟩
      · exact ⟨a :: pre, c, post, rfl, h⟩
    · rintro ⟨pre, c, post, heq, h⟩
      cases pre with
      | nil =>
        obtain ⟨rfl, rfl⟩ := List.cons.inj heq
        exact Or.inl h
      | cons d pre =>
        obtain ⟨rfl, rfl⟩ := List.cons.inj heq
        exact Or.inr ⟨pre, c, post, rfl, h⟩

/-- **The rule of the pieces.**  A property of lists that can be put behind each other holds of what
a run puts out when it holds of what each step puts out. -/
theorem collect_of_append {P : List β → Prop} (hnil : P [])
    (happend : ∀ l m, P l → P m → P (l ++ m))
    (hI : ∀ s a, I s → I (M.next s a)) (hstep : ∀ s a, I s → P (f s a)) {s : σ} (hs : I s)
    (as : List α) : P (M.collect f s as) := by
  induction as generalizing s with
  | nil => exact hnil
  | cons a as ih => exact happend _ _ (hstep s a hs) (ih (hI s a hs))

/-- **The rule of two outputs.**  A relation of lists that is kept when related lists are put behind
each other relates two outputs of a run when it relates those of each step. -/
theorem collect_rel {R : List β → List γ → Prop} {g : σ → α → List γ} (hnil : R [] [])
    (happend : ∀ l l' m m', R l m → R l' m' → R (l ++ l') (m ++ m'))
    (hI : ∀ s a, I s → I (M.next s a)) (hstep : ∀ s a, I s → R (f s a) (g s a)) {s : σ} (hs : I s)
    (as : List α) : R (M.collect f s as) (M.collect g s as) := by
  induction as generalizing s with
  | nil => exact hnil
  | cons a as ih => exact happend _ _ _ _ (hstep s a hs) (ih (hI s a hs))

/-- **The rule of the numbered outputs.**  When a step in a state of phase `n` puts out the values
of `g` from the number `n` on, and leads to the phase behind them, so does a run. -/
theorem collect_of_phase {P : ℕ → σ → Prop} {g : ℕ → β}
    (hstep : ∀ n s a, P n s → f s a = (List.range' n (f s a).length).map g ∧
      P (n + (f s a).length) (M.next s a)) {n : ℕ} {s : σ} (hs : P n s) (as : List α) :
    M.collect f s as = (List.range' n (M.collect f s as).length).map g := by
  induction as generalizing n s with
  | nil => rfl
  | cons a as ih =>
    obtain ⟨hout, hnext⟩ := hstep n s a hs
    rw [collect_cons, List.length_append, ← List.range'_append_1, List.map_append, ← hout,
      ← ih hnext]

/-- **The rule of the sources.**  When what a step puts out comes from its input, in order and each
from another part of it, then what a run puts out comes in this way from the whole word. -/
theorem sublistForall₂_collect {R : β → γ → Prop} {g : α → List γ}
    (hI : ∀ s a, I s → I (M.next s a))
    (hstep : ∀ s a, I s → List.SublistForall₂ R (f s a) (g a)) {s : σ} (hs : I s) (as : List α) :
    List.SublistForall₂ R (M.collect f s as) (as.flatMap g) := by
  induction as generalizing s with
  | nil => exact List.SublistForall₂.nil
  | cons a as ih =>
    rw [collect_cons, List.flatMap_cons]
    exact sublistForall₂_append (hstep s a hs) (ih (hI s a hs))

/-- **The unwinding rule.**  If related inputs take related states to related states and put out
the same, then runs on words of related inputs from related states put out the same. -/
theorem unwinding {N : Machine τ γ} {g : τ → γ → List β} {R : σ → τ → Prop} {E : α → γ → Prop}
    (hstep : ∀ s t a b, R s t → E a b → R (M.next s a) (N.next t b) ∧ f s a = g t b)
    {s : σ} {t : τ} {as : List α} {bs : List γ} (hst : R s t) (hab : List.Forall₂ E as bs) :
    R (M.run s as) (N.run t bs) ∧ M.collect f s as = N.collect g t bs := by
  induction hab generalizing s t with
  | nil => exact ⟨hst, rfl⟩
  | cons hE _ ih =>
    obtain ⟨hnext, hout⟩ := hstep _ _ _ _ hst hE
    obtain ⟨hrun, hrest⟩ := ih hnext
    exact ⟨hrun, by rw [collect_cons, collect_cons, hout, hrest]⟩

/-- **The rule of the second machine.**  A second machine is run on inputs that stand for what a run
of the first one puts out.  If at each step of this run the states stay related when the second
machine takes what stands for the outputs of the step, they are related in the end. -/
theorem feed {N : Machine τ γ} {i : δ → γ} {e : δ → β} {R : σ → τ → Prop} {s : σ} {t : τ}
    {as : List α} (hst : R s t)
    (hstep : ∀ pre a post, as = pre ++ a :: post → ∀ (t : τ) (ds : List δ), R (M.run s pre) t →
      ds.map e = f (M.run s pre) a → R (M.next (M.run s pre) a) (N.run t (ds.map i)))
    {ds : List δ} (hds : ds.map e = M.collect f s as) : R (M.run s as) (N.run t (ds.map i)) := by
  induction as generalizing s t ds with
  | nil =>
    obtain rfl := List.map_eq_nil_iff.mp hds
    exact hst
  | cons a as ih =>
    rw [collect_cons] at hds
    obtain ⟨ds₁, ds₂, rfl, h₁, h₂⟩ := List.map_eq_append_iff.mp hds
    rw [List.map_append, run_append]
    refine ih (hstep [] a as rfl t ds₁ hst h₁) (fun pre b post has t ds hR hds => ?_) h₂
    exact hstep (a :: pre) b post (by rw [has]; rfl) t ds hR hds

end Machine

end Lib
