import Mathlib.Data.List.Basic
import Mathlib.Tactic.Common

/-!
# Logs of resource use

A log is a list of events in the order in which they happened.  An event may open a resource,
close one, or use one.  A resource is live after a log when the log opens it and does not close
it, and a log is safe when every use, a closing included if one likes, is of a resource that is
live at that moment.

Nothing here says what the resources are: files, locks, sessions.
-/

namespace Lib

/-- What an event does to resources: which one it opens, closes, or uses. -/
structure Usage (ε η : Type*) where
  /-- The resource that the event opens. -/
  opens : ε → Option η
  /-- The resource that the event closes. -/
  closes : ε → Option η
  /-- The resource that must be live for the event to be in order. -/
  uses : ε → Option η

namespace Usage

variable {ε η : Type*} (U : Usage ε η)

/-- The resources opened by a log, in order. -/
def opened (log : List ε) : List η := log.filterMap U.opens

/-- The resources closed by a log, in order. -/
def closed (log : List ε) : List η := log.filterMap U.closes

/-- The resource has been opened and not been closed. -/
def Live (log : List ε) (h : η) : Prop := h ∈ U.opened log ∧ h ∉ U.closed log

/-- Every use in the log is of a resource that is live when it is used. -/
def Safe (log : List ε) : Prop :=
  ∀ pre e post, log = pre ++ e :: post → ∀ h, U.uses e = some h → U.Live pre h

@[simp] lemma opened_append (log es : List ε) :
    U.opened (log ++ es) = U.opened log ++ U.opened es := by
  simp [opened]

@[simp] lemma closed_append (log es : List ε) :
    U.closed (log ++ es) = U.closed log ++ U.closed es := by
  simp [closed]

@[simp] lemma mem_opened {log : List ε} {h : η} :
    h ∈ U.opened log ↔ ∃ e ∈ log, U.opens e = some h := by
  simp [opened]

@[simp] lemma mem_closed {log : List ε} {h : η} :
    h ∈ U.closed log ↔ ∃ e ∈ log, U.closes e = some h := by
  simp [closed]

lemma safe_nil : U.Safe [] := by
  intro pre e post h
  simp at h

/-- A log stays safe under one more event exactly when the event uses a live resource. -/
lemma safe_concat {log : List ε} {e : ε} :
    U.Safe (log ++ [e]) ↔ U.Safe log ∧ ∀ h, U.uses e = some h → U.Live log h := by
  constructor
  · intro hs
    refine ⟨fun pre e' post hlog h hu => ?_, fun h hu => hs log e [] rfl h hu⟩
    exact hs pre e' (post ++ [e]) (by simp [hlog]) h hu
  · rintro ⟨hs, he⟩ pre e' post hlog h hu
    rcases List.eq_nil_or_concat post with rfl | ⟨post', e'', rfl⟩
    · obtain ⟨rfl, hee⟩ := List.append_inj' hlog rfl
      obtain rfl : e = e' := by simpa using hee
      exact he h hu
    · have hlog' : log ++ [e] = (pre ++ e' :: post') ++ [e''] := by simpa using hlog
      obtain ⟨rfl, -⟩ := List.append_inj' hlog' rfl
      exact hs pre e' post' rfl h hu

variable {U}

lemma Live.append {log es : List ε} {h : η} (hl : U.Live log h)
    (hc : ∀ e ∈ es, U.closes e ≠ some h) : U.Live (log ++ es) h := by
  refine ⟨by simpa using Or.inl (by simpa using hl.1), ?_⟩
  rw [closed_append, List.mem_append]
  rintro (h' | h')
  · exact hl.2 h'
  · obtain ⟨e, he, hce⟩ := (U.mem_closed).mp h'
    exact hc e he hce

/-- Events that close nothing and use only what is live keep a log safe. -/
lemma Safe.append {log es : List ε} (hs : U.Safe log) (hc : ∀ e ∈ es, U.closes e = none)
    (hu : ∀ e ∈ es, ∀ h, U.uses e = some h → U.Live log h) : U.Safe (log ++ es) := by
  induction es generalizing log with
  | nil => simpa using hs
  | cons e es ih =>
    have hstep : U.Safe (log ++ [e]) := U.safe_concat.mpr ⟨hs, hu e (by simp)⟩
    have hrest : U.Safe ((log ++ [e]) ++ es) := by
      refine ih hstep (fun e' he' => hc e' (by simp [he'])) fun e' he' h hh => ?_
      refine (hu e' (by simp [he']) h hh).append fun e'' he'' => ?_
      obtain rfl := List.mem_singleton.mp he''
      simp [hc e'' (by simp)]
    simpa using hrest

end Usage

end Lib
