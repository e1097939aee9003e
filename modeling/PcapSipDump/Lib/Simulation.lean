import PcapSipDump.Lib.Machine

/-!
# Refinement of a relational system

An abstract system says which states an input may lead to.  A machine refines it when a relation
between their states holds at the start and every step of the machine is matched by a step of the
system.  Then every run of the machine is matched by one of the system on the same inputs
(`Refines.run`), and what holds of all states of the system on the way holds, through the relation,
of the machine (`Refines.transfer`).
-/

namespace Lib

/-- A system on states `τ` whose inputs may lead to several states. -/
structure System (τ α : Type*) where
  step : τ → α → τ → Prop

namespace System

variable {σ τ α : Type*} (N : System τ α)

/-- The states that the system may come to on a word of inputs. -/
inductive Run : τ → List α → τ → Prop where
  | nil (t : τ) : Run t [] t
  | snoc {t u v : τ} {as : List α} {a : α} : Run t as u → N.step u a v → Run t (as ++ [a]) v

variable {N}

/-- What holds at the start, and is kept by each step in view of the inputs so far, holds after
every run. -/
theorem Run.invariant {P : List α → τ → Prop} {t u : τ} {as : List α} (hrun : N.Run t as u)
    (hstart : P [] t) (hstep : ∀ as a u v, P as u → N.step u a v → P (as ++ [a]) v) : P as u := by
  induction hrun with
  | nil => exact hstart
  | snoc _ h ih => exact hstep _ _ _ _ ih h

variable (N) in
/-- Every step of the machine from a related state is matched by a step of the system. -/
def Refines (M : Machine σ α) (R : σ → τ → Prop) : Prop :=
  ∀ s a t, R s t → ∃ u, N.step t a u ∧ R (M.next s a) u

/-- **Every run is matched by a run of the system.** -/
theorem Refines.run {M : Machine σ α} {R : σ → τ → Prop} (h : N.Refines M R) {s : σ} {t : τ}
    (hst : R s t) (as : List α) : ∃ u, N.Run t as u ∧ R (M.run s as) u := by
  induction as using List.reverseRecOn with
  | nil => exact ⟨t, Run.nil t, hst⟩
  | append_singleton as a ih =>
    obtain ⟨u, hrun, hu⟩ := ih
    obtain ⟨v, hstep, hv⟩ := h _ a u hu
    exact ⟨v, hrun.snoc hstep, by rwa [Machine.run_append]⟩

/-- **Properties of the system hold of the machine.** -/
theorem Refines.transfer {M : Machine σ α} {R : σ → τ → Prop} (h : N.Refines M R) {s : σ} {t : τ}
    (hst : R s t) {P : List α → τ → Prop} (hstart : P [] t)
    (hstep : ∀ as a u v, P as u → N.step u a v → P (as ++ [a]) v) (as : List α) :
    ∃ u, P as u ∧ R (M.run s as) u := by
  obtain ⟨u, hrun, hu⟩ := h.run hst as
  exact ⟨u, hrun.invariant hstart hstep, hu⟩

end System

end Lib
