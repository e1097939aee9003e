import PcapSipDump.Lib.Traces
import Mathlib.Tactic.Tauto

/-!
# Logs of buffered output

What is written to a buffered resource is pending until the resource is flushed.  A log is settled
when nothing is pending after it, and it closes in order when nothing is pending for a resource at
the moment at which the log closes it.  Settled logs can be put behind each other, and so can the
pieces that keep the closings in order (`KeepsOrder`); both are therefore properties of the outputs
of runs.
-/

namespace Lib

/-- What an event does to buffered resources: which one it writes to, flushes or closes. -/
structure Buffering (ε η : Type*) where
  writes : ε → Option η
  flushes : ε → Option η
  closes : ε → Option η

namespace Buffering

variable {ε η : Type*} (B : Buffering ε η)

/-- Something has been written to the resource and not been flushed since. -/
def Pending (h : η) : List ε → Prop
  | [] => False
  | e :: es => (B.writes e = some h ∧ ∀ e' ∈ es, B.flushes e' ≠ some h) ∨ Pending h es

instance instDecidablePending [DecidableEq η] (h : η) : ∀ log, Decidable (B.Pending h log)
  | [] => isFalse id
  | _ :: es =>
      have := instDecidablePending h es
      inferInstanceAs (Decidable ((_ ∧ _) ∨ _))

/-- Nothing is pending. -/
def Settled (log : List ε) : Prop := ∀ h, ¬B.Pending h log

/-- Nothing is pending for a resource when it is closed. -/
def ClosesInOrder (log : List ε) : Prop :=
  ∀ pre e post, log = pre ++ e :: post → ∀ h, B.closes e = some h → ¬B.Pending h pre

/-- Behind a log that closes in order the events close in order. -/
def KeepsOrder (es : List ε) : Prop := ∀ log, B.ClosesInOrder log → B.ClosesInOrder (log ++ es)

variable {B}

lemma pending_append {h : η} {log es : List ε} : B.Pending h (log ++ es) ↔
    B.Pending h es ∨ B.Pending h log ∧ ∀ e ∈ es, B.flushes e ≠ some h := by
  induction log with
  | nil => simp [Pending]
  | cons e log ih =>
    rw [List.cons_append, Pending, Pending, ih, List.forall_mem_append]
    tauto

lemma settled_of_forall {es : List ε} (hes : ∀ e ∈ es, B.writes e = none) : B.Settled es := by
  intro h hp
  induction es with
  | nil => exact hp
  | cons e es ih =>
    rcases hp with ⟨hw, -⟩ | hp
    · exact absurd ((hes e List.mem_cons_self).symm.trans hw) (by simp)
    · exact ih (fun e' he' => hes e' (List.mem_cons_of_mem _ he')) hp

lemma Settled.append {log es : List ε} (hlog : B.Settled log) (hes : B.Settled es) :
    B.Settled (log ++ es) := by
  intro h hp
  rcases pending_append.mp hp with hp | ⟨hp, -⟩
  · exact hes h hp
  · exact hlog h hp

lemma closesInOrder_nil : B.ClosesInOrder [] := by
  intro pre e post h
  simp at h

lemma closesInOrder_concat {log : List ε} {e : ε} : B.ClosesInOrder (log ++ [e]) ↔
    B.ClosesInOrder log ∧ ∀ h, B.closes e = some h → ¬B.Pending h log := by
  constructor
  · intro hlog
    refine ⟨fun pre e' post heq h hc => ?_, fun h hc => hlog log e [] rfl h hc⟩
    exact hlog pre e' (post ++ [e]) (by simp [heq]) h hc
  · rintro ⟨hlog, he⟩ pre e' post heq h hc
    rcases List.eq_nil_or_concat post with rfl | ⟨post', e'', rfl⟩
    · obtain ⟨rfl, hlast⟩ := List.append_inj' heq rfl
      obtain rfl : e = e' := by simpa using hlast
      exact he h hc
    · have heq' : log ++ [e] = (pre ++ e' :: post') ++ [e''] := by simpa using heq
      obtain ⟨rfl, -⟩ := List.append_inj' heq' rfl
      exact hlog pre e' post' rfl h hc

lemma keepsOrder_nil : B.KeepsOrder [] := by
  intro log h
  rwa [List.append_nil]

lemma KeepsOrder.append {es es' : List ε} (h : B.KeepsOrder es) (h' : B.KeepsOrder es') :
    B.KeepsOrder (es ++ es') := by
  intro log hlog
  rw [← List.append_assoc]
  exact h' _ (h log hlog)

lemma keepsOrder_of_forall {es : List ε} (hes : ∀ e ∈ es, B.closes e = none) :
    B.KeepsOrder es := by
  induction es using List.reverseRecOn with
  | nil => exact keepsOrder_nil
  | append_singleton es e ih =>
    refine (ih fun e' he' => hes e' (List.mem_append_left _ he')).append fun log hlog => ?_
    have he := hes e (List.mem_append_right _ (List.mem_singleton.mpr rfl))
    exact closesInOrder_concat.mpr ⟨hlog, fun h hc => absurd (he.symm.trans hc) (by simp)⟩

/-- A resource that is flushed and then closed is closed in order. -/
lemma keepsOrder_flush_close {e e' : ε} {h : η} (he : B.flushes e = some h)
    (hw : B.writes e = none) (hc : B.closes e = none) (he' : B.closes e' = some h) :
    B.KeepsOrder [e, e'] := by
  intro log hlog
  have hflush : B.ClosesInOrder (log ++ [e]) :=
    closesInOrder_concat.mpr ⟨hlog, fun h hh => absurd (hc.symm.trans hh) (by simp)⟩
  have hclose : B.ClosesInOrder (log ++ [e] ++ [e']) := by
    refine closesInOrder_concat.mpr ⟨hflush, fun h' hh' hp => ?_⟩
    obtain rfl : h = h' := Option.some.inj (he'.symm.trans hh')
    rcases pending_append.mp hp with hp | ⟨-, hno⟩
    · exact settled_of_forall (by simpa using hw) h hp
    · exact hno e List.mem_cons_self he
  simpa using hclose

end Buffering

end Lib
