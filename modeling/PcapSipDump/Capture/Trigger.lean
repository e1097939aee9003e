import PcapSipDump.Capture.FileName
import PcapSipDump.CallTable.Basic

/-!
# Triggers

`Trigger::add`, which reads a trigger from the command line, and `Trigger::trigger`, which starts
the commands of a list in processes of their own.  A child whose `execv` fails goes on with the
loop of its parent, so the original process is the only one that returns exactly when the `execv`
of every process it has forked succeeds.
-/

namespace PcapSipDump

open Lib.CString

/-! ### The configured triggers -/

/-- A program and its arguments, before the expansion. -/
abbrev Command := List Bytes

/-- `Trigger::byname`: the commands for each condition. -/
abbrev Triggers := TriggerCond → List Command

/-- The conditions that `Trigger::init` enters into `byname`. -/
def triggerCond (name : Bytes) : Option TriggerCond :=
  if name = ascii "open" then some .open
  else if name = ascii "close" then some .close
  else none

/-- The command of a trigger, unless its action is not recognised. -/
def triggerCommand (action param : Bytes) : Option Command :=
  if action = ascii "mv" then some [ascii "/bin/mv", ascii "%.", param]
  else if action = ascii "sh" then some [ascii "/bin/sh", ascii "-c", param]
  else if action = ascii "exec" then
    some ((param.splitOnP isspace).filter fun elem => elem ≠ [])
  else none

/-- `Trigger::add` with a value of `Trigger::verbosity`.  It ends the program for a condition that
does not exist, and only prints a message for an action that it does not recognise. -/
def Triggers.add (byname : Triggers) (verbosity : ℤ) (s : Bytes) : Option Triggers :=
  let fields := s.splitOn 58
  (triggerCond (fields.getD 0 [])).bind fun cond =>
    let commands := byname cond ++ (triggerCommand (fields.getD 1 []) (fields.getD 2 [])).toList
    -- the last command of the list is printed, and a list without one has no `back`
    if 2 ≤ verbosity ∧ commands = [] then none else some (Function.update byname cond commands)

/-- The argument of a command that `Trigger::trigger` passes on for the string `j`. -/
def triggerArg (strftime : Bytes → ℤ → Bytes) (fn caller callee callid : Bytes) (time : ℤ)
    (j : Bytes) : Bytes :=
  if j = ascii "%." then fn
  else if 37 ∈ cstr j then
    cstr (strftime (expandDirTemplate (cstr j) caller callee callid) time)
  else cstr j

/-! ### The processes -/

/-- What the calls of `fork` and `execv` do.  A process is known by the triggers at which it and
its ancestors have been forked, the original one by the empty list. -/
structure Processes where
  /-- Whether the `fork` of a process at a trigger succeeds. -/
  fork : List ℕ → ℕ → Bool
  /-- Whether the `execv` of a process succeeds. -/
  execv : List ℕ → List Bytes → Bool

/-- What becomes of a process. -/
inductive Outcome where
  /-- It starts the command of a trigger. -/
  | starts (process : List ℕ) (i : ℕ)
  /-- It returns from `Trigger::trigger`. -/
  | returns (process : List ℕ)
deriving DecidableEq

variable (procs : Processes) (arg : Bytes → Bytes)

/-- The loop of `Trigger::trigger` in a process, from trigger `i` on, with the outcomes of the
process and of its descendants. -/
def triggerFrom : List Command → ℕ → List ℕ → List Outcome
  | [], _, self => [.returns self]
  | cmd :: t, i, self =>
      if procs.fork self i then
        -- the child, which goes on with the loop after a failed `execv`
        (if procs.execv (self ++ [i]) (cmd.map arg) then [.starts (self ++ [i]) i]
          else triggerFrom t (i + 1) (self ++ [i])) ++
          triggerFrom t (i + 1) self
      else triggerFrom t (i + 1) self

/-- `Trigger::trigger` in the original process. -/
def trigger (t : List Command) : List Outcome := triggerFrom procs arg t 0 []

/-- The processes that return. -/
def returning (outcomes : List Outcome) : List (List ℕ) :=
  outcomes.filterMap fun
    | .returns process => some process
    | .starts _ _ => none

/-- The triggers that are started. -/
def started (outcomes : List Outcome) : List ℕ :=
  outcomes.filterMap fun
    | .starts _ i => some i
    | .returns _ => none

lemma returning_append (a b : List Outcome) : returning (a ++ b) = returning a ++ returning b :=
  List.filterMap_append

lemma started_append (a b : List Outcome) : started (a ++ b) = started a ++ started b :=
  List.filterMap_append

variable {procs arg}

/-- A process that enters the loop returns, last of all its descendants. -/
lemma self_mem_returning (t : List Command) (i : ℕ) (self : List ℕ) :
    ∃ l, returning (triggerFrom procs arg t i self) = l ++ [self] := by
  induction t generalizing i with
  | nil => exact ⟨[], rfl⟩
  | cons cmd t ih =>
    obtain ⟨l, hl⟩ := ih (i + 1)
    rw [triggerFrom]
    by_cases hfork : procs.fork self i
    · rw [if_pos hfork, returning_append, hl]
      exact ⟨_, (List.append_assoc _ l [self]).symm⟩
    · rw [if_neg hfork]
      exact ⟨l, hl⟩

/-- Every `execv` in a child of the process succeeds. -/
def ChildrenExec (procs : Processes) (arg : Bytes → Bytes) (t : List Command) (i : ℕ)
    (self : List ℕ) : Prop :=
  ∀ k (hk : k < t.length), procs.fork self (i + k) →
    procs.execv (self ++ [i + k]) ((t.get ⟨k, hk⟩).map arg)

lemma childrenExec_cons {cmd : Command} {t : List Command} {i : ℕ} {self : List ℕ} :
    ChildrenExec procs arg (cmd :: t) i self ↔
      (procs.fork self i → procs.execv (self ++ [i]) (cmd.map arg)) ∧
        ChildrenExec procs arg t (i + 1) self := by
  constructor
  · intro h
    refine ⟨h 0 (Nat.succ_pos _), fun k hk hfork => ?_⟩
    rw [show i + 1 + k = i + (k + 1) by omega] at hfork ⊢
    exact h (k + 1) (Nat.succ_lt_succ hk) hfork
  · rintro ⟨hfirst, hrest⟩ k hk hfork
    cases k with
    | zero => exact hfirst hfork
    | succ k =>
      rw [show i + (k + 1) = i + 1 + k by omega] at hfork ⊢
      exact hrest k (Nat.lt_of_succ_lt_succ hk) hfork

/-- Only the process itself returns exactly when all its children become other programs. -/
lemma returning_eq_self_iff (t : List Command) (i : ℕ) (self : List ℕ) :
    returning (triggerFrom procs arg t i self) = [self] ↔ ChildrenExec procs arg t i self := by
  induction t generalizing i with
  | nil => exact iff_of_true rfl (by rintro k ⟨⟩)
  | cons cmd t ih =>
    rw [childrenExec_cons, ← ih (i + 1), triggerFrom]
    by_cases hfork : procs.fork self i
    · rw [if_pos hfork, returning_append]
      by_cases hexec : procs.execv (self ++ [i]) (cmd.map arg)
      · rw [if_pos hexec]
        exact ⟨fun h => ⟨fun _ => hexec, h⟩, fun h => h.2⟩
      · rw [if_neg hexec]
        refine iff_of_false (fun h => ?_) fun h => hexec (h.1 hfork)
        -- the child and the process both return
        obtain ⟨l, hl⟩ : ∃ l, returning (triggerFrom procs arg t (i + 1) (self ++ [i])) =
          l ++ [self ++ [i]] := self_mem_returning t (i + 1) (self ++ [i])
        obtain ⟨l', hl'⟩ : ∃ l, returning (triggerFrom procs arg t (i + 1) self) = l ++ [self] :=
          self_mem_returning t (i + 1) self
        have hlen := congrArg List.length h
        rw [hl, hl'] at hlen
        simp only [List.length_append, List.length_singleton] at hlen
        omega
    · rw [if_neg hfork]
      exact ⟨fun h => ⟨fun h' => absurd h' hfork, h⟩, fun h => h.2⟩

/-- Then no trigger is started twice. -/
lemma started_nodup {t : List Command} {i : ℕ} {self : List ℕ}
    (h : ChildrenExec procs arg t i self) :
    (started (triggerFrom procs arg t i self)).Nodup ∧
      ∀ k ∈ started (triggerFrom procs arg t i self), i ≤ k := by
  induction t generalizing i with
  | nil => exact ⟨List.nodup_nil, by rintro k ⟨⟩⟩
  | cons cmd t ih =>
    obtain ⟨hfirst, hrest⟩ := childrenExec_cons.mp h
    obtain ⟨hnodup, hle⟩ := ih hrest
    rw [triggerFrom]
    by_cases hfork : procs.fork self i
    · rw [if_pos hfork, if_pos (hfirst hfork), started_append]
      show (i :: started (triggerFrom procs arg t (i + 1) self)).Nodup ∧
        ∀ k ∈ i :: started (triggerFrom procs arg t (i + 1) self), i ≤ k
      refine ⟨List.nodup_cons.mpr ⟨fun hmem => ?_, hnodup⟩, fun k hk => ?_⟩
      · have hlt := hle i hmem
        omega
      · rcases List.mem_cons.mp hk with rfl | hk
        · exact le_refl k
        · exact (Nat.le_succ i).trans (hle k hk)
    · rw [if_neg hfork]
      exact ⟨hnodup, fun k hk => (Nat.le_succ i).trans (hle k hk)⟩

/-- **Who returns from `Trigger::trigger`.**  The original process is the only one that returns,
and no trigger is started twice, if and only if `execv` succeeds in every child that the original
process forks. -/
theorem trigger_returns_once_iff (procs : Processes) (arg : Bytes → Bytes) (t : List Command) :
    (returning (trigger procs arg t) = [[]] ∧
        ∀ i, (started (trigger procs arg t)).count i ≤ 1) ↔
      ∀ i (hi : i < t.length), procs.fork [] i → procs.execv [i] ((t.get ⟨i, hi⟩).map arg) := by
  have hchildren : ChildrenExec procs arg t 0 [] ↔
      ∀ i (hi : i < t.length), procs.fork [] i → procs.execv [i] ((t.get ⟨i, hi⟩).map arg) := by
    simp only [ChildrenExec, Nat.zero_add, List.nil_append]
  rw [← hchildren, ← returning_eq_self_iff]
  constructor
  · rintro ⟨hreturns, -⟩
    exact hreturns
  · intro hreturns
    have hexec := (returning_eq_self_iff t 0 []).mp hreturns
    exact ⟨hreturns, fun i => List.nodup_iff_count_le_one.mp (started_nodup hexec).1 i⟩

/-- A child whose program does not exist returns. -/
theorem trigger_returns_once_false :
    ¬∀ (procs : Processes) (arg : Bytes → Bytes) (t : List Command),
      returning (trigger procs arg t) = [[]] ∧
        ∀ i, (started (trigger procs arg t)).count i ≤ 1 := by
  intro h
  obtain ⟨hreturns, -⟩ := h ⟨fun _ _ => true, fun _ _ => false⟩ id [[ascii "/no/such/file"]]
  exact absurd hreturns (by decide +kernel)

end PcapSipDump
