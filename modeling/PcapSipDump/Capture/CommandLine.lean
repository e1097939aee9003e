import Mathlib.Data.List.GetD
import PcapSipDump.Capture.Loop
import PcapSipDump.Capture.SizeOption
import PcapSipDump.Capture.TriggerSyntax
import PcapSipDump.Lib.Getopt
import PcapSipDump.Lib.KeyedFold

/-!
# The command line

The beginning of `main`: the options, and the filter expression that the other words make.  Each
case of the `switch` ends the program or makes an assignment, a `Setting`.  Which of them depends on
the options before it for `-t` only, which looks at the verbosity.  So the order of different
options does not matter, except for that of `-v` and `-t` (`startup_order`).
-/

namespace PcapSipDump

open Lib Lib.CString Lib.Getopt

/-! ### What the options set -/

/-- A command as `Trigger::add` makes it of an action and a parameter, which has no colon. -/
structure TriggerCommand where
  argv : Command
  made : ∃ action : TriggerAction, ∃ param, 58 ∉ param ∧ action.command param = argv

/-- The variables of `main` that the options set.  The expressions of the filters are not compiled
here. -/
@[ext]
structure Settings where
  ifname : Option Bytes := none
  fname : Option Bytes := none
  optFntemplate : Bytes
  verbosity : Int32 := 0
  methodFilter : Bytes := ascii "^(INVITE|OPTIONS|REGISTER)$"
  numberFilter : Option Bytes := none
  optRtpsave : RtpSave := .rtpRtcp
  optT38only : Bool := false
  optCallSkipN : Int32 := 1
  optPcapBufferSize : Int32 := 0
  optAbsoluteTimeout : Int32 := 2147483647
  triggers : TriggerCond → List TriggerCommand := fun _ => []
  pidFile : Bytes := ascii "/var/run/pcapsipdump.pid"
  optFork : Bool := true
  optPromisc : Bool := true
  optPacketbuffered : Bool := false
  callSkipN_pos : 1 ≤ optCallSkipN.toInt := by decide
  pcapBufferSize_nonneg : 0 ≤ optPcapBufferSize.toInt := by decide

/-- An assignment of the `switch`. -/
inductive Setting where
  | ifname (name : Bytes)
  | fname (name : Bytes)
  | fntemplate (template : Bytes)
  | verbosity (level : Int32)
  | methodFilter (regex : Bytes)
  | numberFilter (regex : Bytes)
  | rtpsave (mode : RtpSave)
  | t38only
  | callSkipN (n : Int32) (pos : 1 ≤ n.toInt)
  | pcapBufferSize (size : Int32) (pos : 1 ≤ size.toInt)
  | absoluteTimeout (limit : Int32)
  /-- `Trigger::add`, which enters nothing for an action that it does not recognise. -/
  | trigger (cond : TriggerCond) (cmd : Option TriggerCommand)
  | pidFile (path : Bytes)
  | foreground
  | notPromisc
  | packetbuffered

/-- The settings after an assignment. -/
def Setting.apply (s : Settings) : Setting → Settings
  | ifname name => { s with ifname := some name }
  | fname name => { s with fname := some name }
  | fntemplate template => { s with optFntemplate := template }
  | verbosity level => { s with verbosity := level }
  | methodFilter regex => { s with methodFilter := regex }
  | numberFilter regex => { s with numberFilter := some regex }
  | rtpsave mode => { s with optRtpsave := mode }
  | t38only => { s with optT38only := true }
  | callSkipN n pos => { s with optCallSkipN := n, callSkipN_pos := pos }
  | pcapBufferSize size pos =>
      { s with optPcapBufferSize := size, pcapBufferSize_nonneg := by omega }
  | absoluteTimeout limit => { s with optAbsoluteTimeout := limit }
  | trigger cond cmd =>
      { s with
        triggers := Function.update s.triggers cond (s.triggers cond ++ cmd.toList) }
  | pidFile path => { s with pidFile := path }
  | foreground => { s with optFork := false }
  | notPromisc => { s with optPromisc := false }
  | packetbuffered => { s with optPacketbuffered := true }

/-! ### Reading the options -/

/-- How `main` ends before it captures anything. -/
inductive Exit where
  | usage (status : ℕ)
  | version
  | rtpFilter (optarg : Bytes)
  | callSkipN (optarg : Bytes)
  | pcapBufferSize (optarg : Bytes)
  | triggerCond (s : Bytes)
  /-- The last command of an empty list is printed. -/
  | noCommand
  /-- The filter expression is written behind the end of its array. -/
  | filterOverrun
deriving DecidableEq

/-- The exit status. -/
def Exit.status : Exit → Option ℕ
  | usage status => some status
  | version => some 0
  | rtpFilter _ | callSkipN _ | pcapBufferSize _ => some 1
  | triggerCond _ => some 2
  | noCommand | filterOverrun => none

/-- The message, apart from that of `usage`. -/
def Exit.message : Exit → Bytes
  | usage _ => []
  | version => ascii "pcapsipdump 1.2.1\n"
  | rtpFilter optarg => ascii "Unrecognized RTP filter specification: '" ++ optarg ++ ascii "'\n"
  | callSkipN optarg =>
      ascii "Invalid option '-l " ++ optarg ++ ascii "'. Argument should be positive integer.\n"
  | pcapBufferSize optarg =>
      ascii "Invalid option '-B " ++ optarg ++ ascii "'.\n" ++
        ascii "  Argument should be positive integer with optional quantifier.\n" ++
        ascii "  e.g.: '-B 32768' or '-B 10KB' or '-b 512MiB', etc.\n"
  | triggerCond s =>
      ascii "ERROR: Can't make sense of trigger '" ++ s ++
        ascii "': Not a valid trigger condition '" ++ (s.splitOn 58).getD 0 [] ++ ascii "'.\n"
  | noCommand | filterOverrun => []

/-- The action of a trigger, if `Trigger::add` recognises it. -/
def triggerAction (name : Bytes) : Option TriggerAction :=
  if name = ascii "mv" then some .mv
  else if name = ascii "sh" then some .sh
  else if name = ascii "exec" then some .exec
  else none

/-- No part of a split list has the separator. -/
lemma not_mem_of_mem_splitOn {α : Type*} [DecidableEq α] {a : α} {s x : List α}
    (h : x ∈ s.splitOn a) : a ∉ x := by
  induction s generalizing x with
  | nil =>
    obtain rfl := List.mem_singleton.mp h
    exact List.not_mem_nil
  | cons c s ih =>
    obtain ⟨first, rest, hs⟩ := List.exists_cons_of_ne_nil (List.splitOn_ne_nil a s)
    rw [List.splitOn_cons_eq_if_modifyHead] at h
    split at h
    · rcases List.mem_cons.mp h with rfl | h
      · exact List.not_mem_nil
      · exact ih h
    · rename_i hc
      rw [hs, List.modifyHead_cons] at h
      rcases List.mem_cons.mp h with rfl | h
      · rw [List.mem_cons, not_or]
        exact ⟨fun hac => hc (by simp [hac]), ih (hs ▸ List.mem_cons_self)⟩
      · exact ih (hs ▸ List.mem_cons_of_mem _ h)

/-- No field of a trigger has a colon. -/
lemma colon_not_mem_field (s : Bytes) (i : ℕ) : 58 ∉ (s.splitOn 58).getD i [] := by
  rcases lt_or_ge i (s.splitOn 58).length with hi | hi
  · rw [List.getD_eq_getElem _ _ hi]
    exact not_mem_of_mem_splitOn (List.getElem_mem hi)
  · rw [List.getD_eq_default _ _ hi]
    exact List.not_mem_nil

/-- The argument of `-t`: the condition, and the command unless the action is not recognised. -/
def readTrigger (s : Bytes) : Option (TriggerCond × Option TriggerCommand) :=
  (triggerCond ((s.splitOn 58).getD 0 [])).map fun cond =>
    (cond, (triggerAction ((s.splitOn 58).getD 1 [])).map fun action =>
      ⟨action.command ((s.splitOn 58).getD 2 []), action, _, colon_not_mem_field s 2, rfl⟩)

/-- The second argument of `getopt`. -/
def optstring : Bytes := ascii "i:r:d:v:m:n:R:l:B:T:t:P:fpUhV"

/-- A case of the `switch`. -/
def readOpt (s : Settings) : Opt → Except Exit Setting
  | .arg 105 optarg => .ok (.ifname optarg) -- -i
  | .arg 118 optarg => .ok (.verbosity (.ofInt (atoi optarg))) -- -v
  | .arg 109 optarg => .ok (.methodFilter optarg) -- -m
  | .arg 110 optarg => .ok (.numberFilter optarg) -- -n
  | .arg 82 optarg => -- -R
      if strcasecmpEq optarg (ascii "none") then .ok (.rtpsave .none)
      else if strcasecmpEq optarg (ascii "rtpevent") then .ok (.rtpsave .rtpEvent)
      else if strcasecmpEq optarg (ascii "t38") then .ok .t38only
      else if strcasecmpEq optarg (ascii "all") || strcasecmpEq optarg (ascii "rtp+rtcp") then
        .ok (.rtpsave .rtpRtcp)
      else if strcasecmpEq optarg (ascii "rtp") then .ok (.rtpsave .rtp)
      else .error (.rtpFilter optarg)
  | .arg 108 optarg => -- -l
      let n := Int32.ofInt (atoi optarg)
      if pos : 1 ≤ n.toInt then .ok (.callSkipN n pos) else .error (.callSkipN optarg)
  | .arg 66 optarg => -- -B
      let size := Int32.ofInt (parseSizeString optarg)
      if pos : 1 ≤ size.toInt then .ok (.pcapBufferSize size pos)
      else .error (.pcapBufferSize optarg)
  | .arg 114 optarg => .ok (.fname optarg) -- -r
  | .arg 100 optarg => .ok (.fntemplate optarg) -- -d
  | .flag 102 => .ok .foreground -- -f
  | .flag 112 => .ok .notPromisc -- -p
  | .flag 85 => .ok .packetbuffered -- -U
  | .arg 84 optarg => .ok (.absoluteTimeout (.ofInt (atol optarg))) -- -T
  | .arg 116 optarg => -- -t
      match readTrigger optarg with
      | some (cond, cmd) =>
          if 2 ≤ s.verbosity.toInt ∧ s.triggers cond ++ cmd.toList = [] then .error .noCommand
          else .ok (.trigger cond cmd)
      | none => .error (.triggerCond optarg)
  | .arg 80 optarg => .ok (.pidFile optarg) -- -P
  | .flag 104 => .error (.usage 0) -- -h
  | .flag 86 => .error .version -- -V
  | _ => .error (.usage 1)

/-- The loop over the options. -/
def readOptions (s : Settings) (opts : List Opt) : Except Exit Settings :=
  opts.foldlM (fun s opt => (readOpt s opt).map (Setting.apply s)) s

/-! ### The filter expression -/

/-- `strcat` into an array of this size, unless it writes behind the end. -/
def strcat (size : ℕ) (dst src : Bytes) : Option Bytes :=
  if dst.length + src.length < size then some (dst ++ src) else none

/-- `MAX_PCAP_FILTER_EXPRESSION` -/
def maxPcapFilterExpression : ℕ := 1024

/-- One more word in `filter_exp`, with a blank in front unless it is empty so far. -/
def filterStep (exp word : Bytes) : Option Bytes :=
  (if exp = [] then some exp else strcat maxPcapFilterExpression exp [32]).bind fun exp =>
    strcat maxPcapFilterExpression exp word

/-- `filter_exp`, unless the words are too long for it. -/
def filterExp (words : List Bytes) : Option Bytes := words.foldlM filterStep []

/-- The settings before the first option. -/
def Settings.start (fntemplate : Bytes) : Settings := { optFntemplate := fntemplate }

/-- What `main` does with the other words, after the options. -/
def Settings.withFilter (words : List Bytes) (s : Settings) : Except Exit (Settings × Bytes) :=
  match filterExp words with
  | none => .error .filterOverrun
  | some exp => if s.fname = none ∧ s.ifname = none then .error (.usage 1) else .ok (s, exp)

/-- `main` up to the check of the file name template: the settings and the filter expression. -/
def startup (posix : Bool) (fntemplate : Bytes) (argv : List Bytes) :
    Except Exit (Settings × Bytes) :=
  let words := getopt optstring posix none argv
  (readOptions (.start fntemplate) words.1).bind (Settings.withFilter words.2)

/-! ### What the settings are for -/

/-- `Trigger::byname`. -/
def Settings.byname (s : Settings) : Triggers := fun cond =>
  (s.triggers cond).map TriggerCommand.argv

/-- The settings of the capture loop, for a way to match expressions, a link type and a build. -/
def Settings.options (s : Settings) (regexec : Bytes → Bytes → Bool) (dlt : Dlt)
    (useTcp libbsd : Bool) : Options where
  verbosity := s.verbosity.toInt
  optT38only := s.optT38only
  optRtpsave := s.optRtpsave
  optCallSkipN := s.optCallSkipN.toInt
  optPacketbuffered := s.optPacketbuffered
  optAbsoluteTimeout := s.optAbsoluteTimeout.toInt
  optFntemplate := s.optFntemplate
  numberFilter := s.numberFilter.map regexec
  methodFilter := regexec s.methodFilter
  dlt := dlt
  useTcp := useTcp
  libbsd := libbsd
  callSkipN_pos := s.callSkipN_pos

/-- The last part of `Trigger::add`. -/
lemma add_trigger (s : Settings) (cond : TriggerCond) (cmd : Option TriggerCommand) :
    (if 2 ≤ s.verbosity.toInt ∧ s.byname cond ++ (cmd.map (·.argv)).toList = [] then none
      else some (Function.update s.byname cond (s.byname cond ++ (cmd.map (·.argv)).toList))) =
    (if 2 ≤ s.verbosity.toInt ∧ s.triggers cond ++ cmd.toList = [] then
      (Except.error Exit.noCommand : Except Exit Setting)
      else .ok (.trigger cond cmd)).toOption.map fun x => (x.apply s).byname := by
  have hlist : s.byname cond ++ (cmd.map (·.argv)).toList =
      (s.triggers cond ++ cmd.toList).map TriggerCommand.argv := by
    cases cmd <;> simp [Settings.byname]
  simp only [hlist, List.map_eq_nil_iff]
  split_ifs
  · rfl
  · refine congrArg some (funext fun other => ?_)
    by_cases hother : other = cond
    · subst hother
      simp [Settings.byname, Setting.apply]
    · simp [Settings.byname, Setting.apply, Function.update_of_ne hother]

/-- The option `-t` does what `Trigger::add` does. -/
lemma add_byname (s : Settings) (optarg : Bytes) : s.byname.add s.verbosity.toInt optarg =
    (readOpt s (.arg 116 optarg)).toOption.map fun x => (x.apply s).byname := by
  have hcommand : ∀ action param,
      triggerCommand action param = (triggerAction action).map (·.command param) := by
    intro action param
    unfold triggerCommand triggerAction
    split_ifs <;> rfl
  rw [Triggers.add, readOpt, readTrigger]
  rcases triggerCond ((optarg.splitOn 58).getD 0 []) with _ | cond
  · rfl
  rw [hcommand, Option.bind_some, Option.map_some]
  rcases triggerAction ((optarg.splitOn 58).getD 1 []) with _ | action
  · exact add_trigger s cond none
  · exact add_trigger s cond (some ⟨_, action, _, colon_not_mem_field optarg 2, rfl⟩)

/-- The option `-B` sets the size that `optPcapBufferSize` says. -/
lemma optPcapBufferSize_eq (s : Settings) (optarg : Bytes) : optPcapBufferSize optarg =
    (readOpt s (.arg 66 optarg)).toOption.map
      fun x => (x.apply s).optPcapBufferSize.toInt := by
  have hsize : (Int32.ofInt (parseSizeString optarg)).toInt =
      (parseSizeString optarg).bmod (2 ^ 32) := Int32.toInt_ofInt
  simp only [optPcapBufferSize, readOpt, ← hsize]
  by_cases hpos : 1 ≤ (Int32.ofInt (parseSizeString optarg)).toInt
  · rw [if_neg (by omega), dif_pos hpos]
    rfl
  · rw [if_pos (by omega), dif_neg hpos]
    rfl

/-! ### The order of the options -/

/-- The letter of the option that makes an assignment. -/
def Setting.letter : Setting → UInt8
  | ifname _ => 105
  | fname _ => 114
  | fntemplate _ => 100
  | verbosity _ => 118
  | methodFilter _ => 109
  | numberFilter _ => 110
  | rtpsave _ | t38only => 82
  | callSkipN _ _ => 108
  | pcapBufferSize _ _ => 66
  | absoluteTimeout _ => 84
  | trigger _ _ => 116
  | pidFile _ => 80
  | foreground => 102
  | notPromisc => 112
  | packetbuffered => 85

lemma letter_of_readOpt {s : Settings} {opt : Opt} {x : Setting} (h : readOpt s opt = .ok x) :
    x.letter = opt.letter := by
  unfold readOpt at h
  split at h
  all_goals first
    | (obtain rfl := Except.ok.inj h; rfl)
    | cases h
    | skip
  · -- -R
    split_ifs at h <;> (obtain rfl := Except.ok.inj h; rfl)
  · -- -l
    dsimp only at h
    split_ifs at h
    obtain rfl := Except.ok.inj h
    rfl
  · -- -B
    dsimp only at h
    split_ifs at h
    obtain rfl := Except.ok.inj h
    rfl
  · -- -t
    split at h
    · split_ifs at h
      obtain rfl := Except.ok.inj h
      rfl
    · cases h

/-- Assignments by different options may change places. -/
lemma Setting.apply_comm {x y : Setting} (h : x.letter ≠ y.letter) (s : Settings) :
    y.apply (x.apply s) = x.apply (y.apply s) := by
  cases x <;> cases y <;> first | rfl | exact absurd rfl h

/-- The option, where `-t` counts as `-v`, at which it looks. -/
def optGroup (opt : Opt) : UInt8 := if opt.letter = 116 then 118 else opt.letter

/-- An option of another group does not change what `-t` looks at. -/
lemma Setting.apply_verbosity {x : Setting} (hv : x.letter ≠ 118) (s : Settings) :
    (x.apply s).verbosity = s.verbosity := by
  cases x <;> first | rfl | exact absurd rfl hv

lemma Setting.apply_triggers {x : Setting} (ht : x.letter ≠ 116) (s : Settings) :
    (x.apply s).triggers = s.triggers := by
  cases x <;> first | rfl | exact absurd rfl ht

/-- What an option does depends on the verbosity and on the triggers, for `-t` only. -/
lemma readOpt_congr {s t : Settings} {opt : Opt} (h : opt.letter = 116 →
    t.verbosity = s.verbosity ∧ t.triggers = s.triggers) : readOpt t opt = readOpt s opt := by
  unfold readOpt
  split
  case h_14 optarg =>
    obtain ⟨hverbosity, htriggers⟩ := h rfl
    rw [hverbosity, htriggers]
  all_goals rfl

/-- An option of one group does the same after an option of another one. -/
lemma readOpt_apply {s : Settings} {a b : Opt} {x : Setting} (hx : readOpt s a = .ok x)
    (hab : optGroup a ≠ optGroup b) : readOpt (x.apply s) b = readOpt s b := by
  refine readOpt_congr fun hb => ?_
  rw [optGroup, optGroup, if_pos hb] at hab
  have hletter := letter_of_readOpt hx
  split at hab
  · exact absurd rfl hab
  · rename_i ha
    exact ⟨Setting.apply_verbosity (hletter ▸ hab) s, Setting.apply_triggers (hletter ▸ ha) s⟩

/-- A step of the loop over the options, unless it ends the program. -/
def optStep (s : Settings) (opt : Opt) : Option Settings :=
  ((readOpt s opt).map (Setting.apply s)).toOption

lemma optStep_of_ok {s : Settings} {opt : Opt} {x : Setting} (h : readOpt s opt = .ok x) :
    optStep s opt = some (x.apply s) := by
  rw [optStep, h]
  rfl

lemma optStep_of_error {s : Settings} {opt : Opt} {e : Exit} (h : readOpt s opt = .error e) :
    optStep s opt = none := by
  rw [optStep, h]
  rfl

lemma toOption_readOptions (s : Settings) (opts : List Opt) :
    (readOptions s opts).toOption = opts.foldlM optStep s := by
  induction opts generalizing s with
  | nil => rfl
  | cons opt opts ih =>
    rcases hopt : readOpt s opt with e | x
    · have herror : readOptions s (opt :: opts) = .error e := by
        rw [readOptions, List.foldlM_cons, hopt]
        rfl
      rw [herror, List.foldlM_cons, optStep_of_error hopt]
      rfl
    · have hok : readOptions s (opt :: opts) = readOptions (x.apply s) opts := by
        rw [readOptions, List.foldlM_cons, hopt]
        rfl
      rw [hok, ih, List.foldlM_cons, optStep_of_ok hopt]
      rfl

/-- Options of different groups may change places. -/
lemma keysCommute_optStep : KeysCommute optGroup optStep := by
  intro s a b hab
  rcases ha : readOpt s a with e | x
  · rw [optStep_of_error ha, Option.bind_none]
    rcases hb : readOpt s b with e' | y
    · rw [optStep_of_error hb, Option.bind_none]
    · rw [optStep_of_ok hb, Option.bind_some]
      exact (optStep_of_error ((readOpt_apply hb hab.symm).trans ha)).symm
  rcases hb : readOpt s b with e | y
  · rw [optStep_of_error hb, Option.bind_none, optStep_of_ok ha]
    exact optStep_of_error ((readOpt_apply ha hab).trans hb)
  · have hxy : x.letter ≠ y.letter := by
      rw [letter_of_readOpt ha, letter_of_readOpt hb]
      exact fun h => hab (by rw [optGroup, optGroup, h])
    rw [optStep_of_ok ha, optStep_of_ok hb, Option.bind_some, Option.bind_some,
      optStep_of_ok ((readOpt_apply ha hab).trans hb),
      optStep_of_ok ((readOpt_apply hb hab.symm).trans ha), Setting.apply_comm hxy]

/-- **The order of different options does not matter.**  Two command lines with the same other words
and with the same options, those of each letter in the same order and also those of `-v` and `-t`
together, are both accepted, with the same settings and the same filter expression, or both end the
program. -/
theorem startup_order (posix : Bool) (fntemplate : Bytes) {argv argv' : List Bytes}
    (hopts : ∀ c, (getopt optstring posix none argv).1.filter (optGroup · = c) =
      (getopt optstring posix none argv').1.filter (optGroup · = c))
    (hwords : (getopt optstring posix none argv).2 = (getopt optstring posix none argv').2) :
    (startup posix fntemplate argv).toOption = (startup posix fntemplate argv').toOption := by
  have hsettings : (readOptions (.start fntemplate) (getopt optstring posix none argv).1).toOption =
      (readOptions (.start fntemplate) (getopt optstring posix none argv').1).toOption := by
    rw [toOption_readOptions, toOption_readOptions, keysCommute_optStep.foldlM_eq hopts]
  have hbind : ∀ (x : Except Exit Settings) (f : Settings → Except Exit (Settings × Bytes)),
      (x.bind f).toOption = x.toOption.bind fun s => (f s).toOption := by
    intro x f
    cases x <;> rfl
  rw [startup, startup, hbind, hbind, hsettings, hwords]

/-- The filter in front or behind, and the options the other way round.  A trigger that is not
recognised is accepted before `-v2` and ends the program behind it. -/
theorem startup_order_swapped :
    let argv := [ascii "-R", ascii "t38", ascii "-l3", ascii "-i", ascii "eth0", ascii "-Rrtp",
      ascii "udp"]
    let argv' := [ascii "udp", ascii "-fieth0", ascii "-topen::", ascii "-Rt38", ascii "-v2",
      ascii "-R", ascii "rtp", ascii "-l3"]
    ((startup false [] (ascii "-ftopen::" :: ascii "-v2" :: argv)).toOption.map
        fun r => (r.1.optRtpsave, r.2)) = some (.rtp, ascii "udp") ∧
      (startup false [] (ascii "-ftopen::" :: ascii "-v2" :: argv)).toOption =
        (startup false [] argv').toOption ∧
      (startup false [] (ascii "-v2" :: ascii "-ftopen::" :: argv)).toOption.isNone := by
  intro argv argv'
  have hargv : (getopt optstring false none (ascii "-ftopen::" :: ascii "-v2" :: argv)).1 =
      [.flag 102, .arg 116 (ascii "open::"), .arg 118 (ascii "2"), .arg 82 (ascii "t38"),
        .arg 108 (ascii "3"), .arg 105 (ascii "eth0"), .arg 82 (ascii "rtp")] := by
    decide +kernel
  have hargv' : (getopt optstring false none argv').1 =
      [.flag 102, .arg 105 (ascii "eth0"), .arg 116 (ascii "open::"), .arg 82 (ascii "t38"),
        .arg 118 (ascii "2"), .arg 82 (ascii "rtp"), .arg 108 (ascii "3")] := by decide +kernel
  refine ⟨by decide +kernel, startup_order false [] (fun c => ?_) (by decide +kernel),
    by decide +kernel⟩
  rw [hargv, hargv']
  by_cases hi : 105 = c
  · subst hi
    rfl
  by_cases hl : 108 = c
  · subst hl
    rfl
  by_cases hv : 118 = c
  · subst hv
    rfl
  simp [List.filter_cons, optGroup, Opt.letter, hi, hl, hv]

end PcapSipDump
