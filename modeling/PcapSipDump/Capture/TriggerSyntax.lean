import PcapSipDump.Capture.Trigger

/-!
# The syntax of a trigger

A trigger is given as a condition, an action and a parameter, with a colon behind the first two.
`Trigger::add` reads all three with `getline` up to the next colon, also the parameter, which has
none behind it.  So what follows a colon of the parameter is lost.
-/

namespace PcapSipDump

open Lib.CString

/-! ### What a trigger stands for -/

/-- The word for a condition. -/
def TriggerCond.word : TriggerCond → Bytes
  | .open => ascii "open"
  | .close => ascii "close"

/-- What a trigger does with its parameter. -/
inductive TriggerAction where
  | mv
  | sh
  | exec
deriving DecidableEq

/-- The word for an action. -/
def TriggerAction.word : TriggerAction → Bytes
  | .mv => ascii "mv"
  | .sh => ascii "sh"
  | .exec => ascii "exec"

/-- The words of a text, which are separated by blanks. -/
def words (text : Bytes) : List Bytes := (text.splitOnP isspace).filter fun word => word ≠ []

/-- The command of an action for the whole parameter. -/
def TriggerAction.command (param : Bytes) : TriggerAction → Command
  | .mv => [ascii "/bin/mv", ascii "%.", param]
  | .sh => [ascii "/bin/sh", ascii "-c", param]
  | .exec => words param

/-- The argument of `-t` for a condition, an action and a parameter. -/
def triggerSpec (cond : TriggerCond) (action : TriggerAction) (param : Bytes) : Bytes :=
  cond.word ++ 58 :: (action.word ++ 58 :: param)

/-- The trigger is entered as it is given: one command more for its condition, that of the whole
parameter, and none for the other condition. -/
def EntersCommand (byname : Triggers) (verbosity : ℤ) (cond : TriggerCond) (action : TriggerAction)
    (param : Bytes) : Prop :=
  ∃ byname', byname.add verbosity (triggerSpec cond action param) = some byname' ∧
    byname' cond = byname cond ++ [action.command param] ∧
    ∀ other, other ≠ cond → byname' other = byname other

/-! ### The words of a text -/

lemma words_cons_blank {c : UInt8} (hc : isspace c) (text : Bytes) :
    words (c :: text) = words text := by
  have hsplit := List.splitOnP_append_cons [] text hc
  rw [List.nil_append] at hsplit
  rw [words, hsplit, List.filter_append, words]
  rfl

/-- The words have every character of the text that is not a blank. -/
lemma flatten_words (text : Bytes) :
    (words text).flatten = text.filter fun c => !isspace c := by
  induction text with
  | nil => rfl
  | cons c text ih =>
    by_cases hc : isspace c
    · rw [words_cons_blank hc, ih, List.filter_cons_of_neg (by simpa using hc)]
    · rw [List.filter_cons_of_pos (by simpa using hc), ← ih, words, words,
        List.splitOnP_cons_eq_if_modifyHead, if_neg hc]
      -- `c` starts a word or belongs to the first one
      obtain ⟨word, rest, hsplit⟩ := List.exists_cons_of_ne_nil (List.splitOnP_ne_nil isspace text)
      rw [hsplit, List.modifyHead_cons, List.filter_cons_of_pos (by simp)]
      by_cases hword : word = []
      · rw [hword, List.filter_cons_of_neg (by simp)]
        rfl
      · rw [List.filter_cons_of_pos (by simpa using hword)]
        rfl

/-- A text that is cut before a character that is no blank does not have the same words. -/
lemma words_takeWhile_ne {d : UInt8} (hd : isspace d = false) {text : Bytes} (h : d ∈ text) :
    words (text.takeWhile (· ≠ d)) ≠ words text := by
  intro heq
  have hflatten := congrArg List.flatten heq
  rw [flatten_words, flatten_words] at hflatten
  have hmem : d ∈ text.filter fun c => !isspace c :=
    List.mem_filter.mpr ⟨h, by rw [hd]; rfl⟩
  rw [← hflatten] at hmem
  have htake : d ∈ text.takeWhile (· ≠ d) := (List.mem_filter.mp hmem).1
  simpa using List.mem_takeWhile_imp htake

/-! ### What `Trigger::add` reads -/

lemma colon_not_mem_cond (cond : TriggerCond) : 58 ∉ cond.word := by
  cases cond <;> simp [TriggerCond.word, ascii]

lemma colon_not_mem_action (action : TriggerAction) : 58 ∉ action.word := by
  cases action <;> simp [TriggerAction.word, ascii]

/-- The first field of a text ends at the first colon. -/
lemma splitOn_getD_zero (text : Bytes) : (text.splitOn 58).getD 0 [] = text.takeWhile (· ≠ 58) := by
  induction text with
  | nil => rfl
  | cons c text ih =>
    rw [List.splitOn_cons_eq_if_modifyHead]
    by_cases hc : c = 58
    · rw [if_pos (by simpa using hc), List.takeWhile_cons_of_neg (by simpa using hc)]
      rfl
    · rw [if_neg (by simpa using hc), List.takeWhile_cons_of_pos (by simpa using hc), ← ih]
      obtain ⟨field, rest, hsplit⟩ := List.exists_cons_of_ne_nil (List.splitOn_ne_nil 58 text)
      rw [hsplit]
      rfl

lemma triggerCond_word (cond : TriggerCond) : triggerCond cond.word = some cond := by
  cases cond with
  | «open» => rfl
  | close => rw [triggerCond, if_neg (by decide)]; rfl

lemma triggerCommand_word (action : TriggerAction) (param : Bytes) :
    triggerCommand action.word param = some (action.command param) := by
  cases action with
  | mv => rfl
  | sh => rw [triggerCommand, if_neg (by decide)]; rfl
  | exec => rw [triggerCommand, if_neg (by decide), if_neg (by decide)]; rfl

/-- The command that is entered is that of the parameter up to its first colon. -/
lemma add_triggerSpec (byname : Triggers) (verbosity : ℤ) (cond : TriggerCond)
    (action : TriggerAction) (param : Bytes) :
    byname.add verbosity (triggerSpec cond action param) = some (Function.update byname cond
      (byname cond ++ [action.command (param.takeWhile (· ≠ 58))])) := by
  have hfields : (triggerSpec cond action param).splitOn 58 =
      cond.word :: action.word :: param.splitOn 58 := by
    rw [triggerSpec, List.splitOn_append_cons_self_of_not_mem (colon_not_mem_cond cond),
      List.splitOn_append_cons_self_of_not_mem (colon_not_mem_action action)]
  rw [Triggers.add]
  simp only [hfields, List.getD_cons_zero, List.getD_cons_succ, triggerCond_word,
    triggerCommand_word, Option.bind_some, Option.toList_some, splitOn_getD_zero]
  refine if_neg fun h => ?_
  simp at h

/-- **The syntax of triggers.**  For each condition and each action, and with any verbosity, a
trigger is entered with its whole parameter if and only if the parameter has no colon. -/
theorem trigger_add_iff (byname : Triggers) (verbosity : ℤ) (cond : TriggerCond)
    (action : TriggerAction) (param : Bytes) :
    EntersCommand byname verbosity cond action param ↔ 58 ∉ param := by
  constructor
  · rintro ⟨byname', hadd, hcond, -⟩ hcolon
    rw [add_triggerSpec] at hadd
    rw [← Option.some.inj hadd, Function.update_self] at hcond
    have hcommand : action.command (param.takeWhile (· ≠ 58)) = action.command param :=
      List.singleton_inj.mp (List.append_cancel_left hcond)
    have hcut : param.takeWhile (· ≠ 58) ≠ param := by
      intro heq
      rw [List.takeWhile_eq_self_iff] at heq
      simpa using heq 58 hcolon
    cases action with
    | mv => exact hcut (by simpa [TriggerAction.command] using hcommand)
    | sh => exact hcut (by simpa [TriggerAction.command] using hcommand)
    | exec => exact words_takeWhile_ne (by decide) hcolon hcommand
  · intro hcolon
    have hwhole : param.takeWhile (· ≠ 58) = param := by
      refine List.takeWhile_eq_self_iff.mpr fun c hc => decide_eq_true ?_
      rintro rfl
      exact hcolon hc
    refine ⟨_, add_triggerSpec byname verbosity cond action param, ?_, fun other hother => ?_⟩
    · rw [Function.update_self, hwhole]
    · rw [Function.update_of_ne hother]

/-- `close:sh:scp %i host:/srv` runs `scp %i host`. -/
theorem trigger_add_false :
    ¬∀ (byname : Triggers) (verbosity : ℤ) (cond : TriggerCond) (action : TriggerAction)
      (param : Bytes), EntersCommand byname verbosity cond action param := by
  intro h
  obtain ⟨byname', hadd, hcond, -⟩ := h (fun _ => []) 0 .close .sh (ascii "scp %i host:/srv")
  rw [add_triggerSpec] at hadd
  rw [← Option.some.inj hadd, Function.update_self] at hcond
  exact absurd hcond (by decide +kernel)

end PcapSipDump
