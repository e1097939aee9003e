import PcapSipDump.Capture.CommandLine

/-!
# A command line for given settings

Each setting has an option that makes it (`Setting.opt`), and settings have a command line that
sets everything again (`Settings.argv`).  `main` reads it back (`startup_argv`), so every value of
`Settings` can come from the command line, and the command line of the settings that `main` has
read stands for whatever command line they have come from.
-/

namespace PcapSipDump

open Lib Lib.CString Lib.Getopt

/-! ### Numbers -/

lemma atol_ofInt (n : Int32) : atol (Decimal.ofInt n.toInt).text = n.toInt := by
  have hlt := n.toInt_lt
  have hle := n.le_toInt
  have h := (Decimal.ofInt n.toInt).atol_text (t := []) rfl
  rw [List.append_nil, Decimal.saturated, Decimal.value_ofInt] at h
  omega

lemma ofInt_atoi_ofInt (n : Int32) : Int32.ofInt (atoi (Decimal.ofInt n.toInt).text) = n := by
  have hlt := n.toInt_lt
  have hle := n.le_toInt
  rw [atoi, atol_ofInt, Int.bmod_eq_of_le (by omega) (by omega), Int32.ofInt_toInt]

/-- The text of a number without a unit is a size. -/
lemma parseSizeString_ofInt (n : Int32) :
    Int32.ofInt (parseSizeString (Decimal.ofInt n.toInt).text) = n := by
  have hlt := n.toInt_lt
  have hle := n.le_toInt
  let a : SizeArgument := ⟨Decimal.ofInt n.toInt, [], 1, by decide⟩
  have htext : a.text = (Decimal.ofInt n.toInt).text := List.append_nil _
  have hlen : a.text.length < 32 := by
    have hdigits : (Decimal.ofInt n.toInt).digits.length ≤ 10 := by
      simp only [Decimal.ofInt, Decimal.natDigits]
      split
      · decide
      · rw [List.length_map, List.length_reverse, Nat.digits_length_le_iff (by decide)]
        omega
    have hsign : (Decimal.ofInt n.toInt).sign.text.length ≤ 1 := by
      cases (Decimal.ofInt n.toInt).sign <;> decide
    rw [htext, Decimal.text, List.length_append]
    omega
  have hsat : a.number.saturated = n.toInt := by
    rw [Decimal.saturated, show a.number = Decimal.ofInt n.toInt from rfl, Decimal.value_ofInt]
    omega
  rw [← htext, a.parseSizeString_text hlen, hsat, Nat.cast_one, mul_one,
    Int.bmod_eq_of_le (by omega) (by omega), Int32.ofInt_toInt]

/-! ### Triggers -/

lemma triggerAction_word (action : TriggerAction) : triggerAction action.word = some action := by
  cases action with
  | mv => rfl
  | sh => rw [triggerAction, if_neg (by decide)]; rfl
  | exec => rw [triggerAction, if_neg (by decide), if_neg (by decide)]; rfl

/-- A trigger whose parameter has no colon is read as it is given. -/
lemma readTrigger_triggerSpec (cond : TriggerCond) (action : TriggerAction) {param : Bytes}
    (hparam : 58 ∉ param) : readTrigger (triggerSpec cond action param) =
      some (cond, some ⟨action.command param, action, param, hparam, rfl⟩) := by
  have hfields : (triggerSpec cond action param).splitOn 58 = [cond.word, action.word, param] := by
    rw [triggerSpec, List.splitOn_append_cons_self_of_not_mem (colon_not_mem_cond cond),
      List.splitOn_append_cons_self_of_not_mem (colon_not_mem_action action),
      List.splitOn_eq_singleton hparam]
  simp only [readTrigger, hfields, List.getD_cons_zero, List.getD_cons_succ, triggerCond_word,
    triggerAction_word, Option.map_some]

/-- A character of a word is one of the text, and no blank. -/
lemma mem_of_mem_words {text word : Bytes} {c : UInt8} (hword : word ∈ words text) (hc : c ∈ word) :
    c ∈ text ∧ isspace c = false := by
  have hmem : c ∈ (words text).flatten := List.mem_flatten.mpr ⟨word, hword, hc⟩
  rw [flatten_words, List.mem_filter] at hmem
  exact ⟨hmem.1, by simpa using hmem.2⟩

/-- The words of words that are joined. -/
lemma words_intercalate {ws : List Bytes} (hne : [] ∉ ws)
    (hws : ∀ word ∈ ws, ∀ c ∈ word, isspace c = false) : words (List.intercalate [32] ws) = ws := by
  have hone : ∀ word : Bytes, word ≠ [] → (∀ c ∈ word, isspace c = false) →
      words word = [word] := by
    intro word hword hblank
    rw [words, List.splitOnP_eq_singleton hblank, List.filter_cons_of_pos (by simpa using hword)]
    rfl
  induction ws with
  | nil => rfl
  | cons word ws ih =>
    obtain ⟨hword, hws⟩ := List.forall_mem_cons.mp hws
    obtain ⟨hnil, hne⟩ := not_or.mp (mt List.mem_cons.mpr hne)
    have hfirst := hone word (Ne.symm hnil) hword
    cases ws with
    | nil => exact (congrArg words (List.append_nil word)).trans hfirst
    | cons word' ws =>
      have happend : words (word ++ 32 :: List.intercalate [32] (word' :: ws)) =
          words word ++ words (List.intercalate [32] (word' :: ws)) := by
        rw [words, List.splitOnP_append_cons _ _ (by decide), List.filter_append]
        rfl
      rw [List.intercalate_cons_cons, List.append_assoc, List.singleton_append, happend, hfirst,
        ih hne hws]
      rfl

lemma mem_of_mem_intercalate {ws : List Bytes} {c : UInt8} (h : c ∈ List.intercalate [32] ws) :
    c = 32 ∨ ∃ word ∈ ws, c ∈ word := by
  induction ws with
  | nil => exact absurd h List.not_mem_nil
  | cons word ws ih =>
    by_cases hws : ws = []
    · rw [hws, List.intercalate_singleton] at h
      exact Or.inr ⟨word, List.mem_cons_self, h⟩
    · rw [List.intercalate_cons_of_ne_nil hws, List.mem_append, List.mem_append,
        List.mem_singleton] at h
      rcases h with (h | h) | h
      · exact Or.inr ⟨word, List.mem_cons_self, h⟩
      · exact Or.inl h
      · exact (ih h).imp id fun ⟨w, hw, hc⟩ => ⟨w, List.mem_cons_of_mem _ hw, hc⟩

/-- An action and a parameter that make the command. -/
def TriggerCommand.source (cmd : TriggerCommand) : TriggerAction × Bytes :=
  match cmd.argv with
  | [program, arg, param] =>
      if program = ascii "/bin/mv" ∧ arg = ascii "%." then (.mv, param)
      else if program = ascii "/bin/sh" ∧ arg = ascii "-c" then (.sh, param)
      else (.exec, List.intercalate [32] cmd.argv)
  | _ => (.exec, List.intercalate [32] cmd.argv)

/-- The parameter has no colon, and the action makes the command of it. -/
lemma TriggerCommand.command_source (cmd : TriggerCommand) :
    58 ∉ cmd.source.2 ∧ cmd.source.1.command cmd.source.2 = cmd.argv := by
  obtain ⟨argv, action, param, hparam, rfl⟩ := cmd
  -- the words of a parameter, joined by blanks
  have hjoin : 58 ∉ List.intercalate [32] (words param) ∧
      words (List.intercalate [32] (words param)) = words param := by
    refine ⟨fun hmem => ?_, words_intercalate ?_ fun word hword c hc =>
      (mem_of_mem_words hword hc).2⟩
    · rcases mem_of_mem_intercalate hmem with h | ⟨word, hword, hc⟩
      · exact absurd h (by decide)
      · exact hparam (mem_of_mem_words hword hc).1
    · simp [words]
  cases action with
  | mv => exact ⟨hparam, rfl⟩
  | sh => exact ⟨hparam, rfl⟩
  | exec =>
    simp only [source, TriggerAction.command]
    split
    · rename_i program arg param' hws
      have hcolon : 58 ∉ param' := by
        intro hmem
        have hlast : param' ∈ words param := by simp [hws]
        exact hparam (mem_of_mem_words hlast hmem).1
      split_ifs with hmv hsh
      · obtain ⟨rfl, rfl⟩ := hmv
        exact ⟨hcolon, hws.symm⟩
      · obtain ⟨rfl, rfl⟩ := hsh
        exact ⟨hcolon, hws.symm⟩
      · exact hjoin
    · exact hjoin

/-! ### An option for each assignment -/

/-- The argument of `-R` for a mode. -/
def RtpSave.word : RtpSave → Bytes
  | none => ascii "none"
  | rtp => ascii "rtp"
  | rtpRtcp => ascii "rtp+rtcp"
  | rtpEvent => ascii "rtpevent"

/-- An option that makes the assignment. -/
def Setting.opt : Setting → Opt
  | ifname name => .arg 105 name
  | fname name => .arg 114 name
  | fntemplate template => .arg 100 template
  | verbosity level => .arg 118 (Decimal.ofInt level.toInt).text
  | methodFilter regex => .arg 109 regex
  | numberFilter regex => .arg 110 regex
  | rtpsave mode => .arg 82 mode.word
  | t38only => .arg 82 (ascii "t38")
  | callSkipN n _ => .arg 108 (Decimal.ofInt n.toInt).text
  | pcapBufferSize size _ => .arg 66 (Decimal.ofInt size.toInt).text
  | absoluteTimeout limit => .arg 84 (Decimal.ofInt limit.toInt).text
  | trigger cond (some cmd) => .arg 116 (triggerSpec cond cmd.source.1 cmd.source.2)
  | trigger cond none => .arg 116 (cond.word ++ [58])
  | pidFile path => .arg 80 path
  | foreground => .flag 102
  | notPromisc => .flag 112
  | packetbuffered => .flag 85

lemma Setting.listed_opt (x : Setting) : x.opt.Listed optstring := by
  rcases x with _ | _ | _ | _ | _ | _ | _ | _ | _ | _ | _ | ⟨_, _ | _⟩ | _ | _ | _ | _ <;>
    (simp only [opt, Opt.Listed]; decide +kernel)

/-- The option makes the assignment, unless it is a trigger that enters nothing. -/
lemma Setting.readOpt_opt {x : Setting} (hx : ∀ cond, x ≠ .trigger cond none) (s : Settings) :
    readOpt s x.opt = .ok x := by
  cases x with
  | rtpsave mode => cases mode <;> rfl
  | t38only => rfl
  | verbosity level => simp only [opt, readOpt, ofInt_atoi_ofInt]
  | callSkipN n pos => simp only [opt, readOpt, ofInt_atoi_ofInt, dif_pos pos]
  | pcapBufferSize size pos => simp only [opt, readOpt, parseSizeString_ofInt, dif_pos pos]
  | absoluteTimeout limit => simp only [opt, readOpt, atol_ofInt, Int32.ofInt_toInt]
  | trigger cond cmd =>
    cases cmd with
    | none => exact absurd rfl (hx cond)
    | some cmd =>
      obtain ⟨hcolon, hcommand⟩ := cmd.command_source
      simp only [opt, readOpt, readTrigger_triggerSpec _ _ hcolon, hcommand]
      exact if_neg (by simp)
  | _ => rfl

/-! ### The settings -/

/-- Assignments that set everything. -/
def Settings.assignments (s : Settings) : List Setting :=
  [.fntemplate s.optFntemplate, .verbosity s.verbosity, .methodFilter s.methodFilter,
    .rtpsave s.optRtpsave, .callSkipN s.optCallSkipN s.callSkipN_pos,
    .absoluteTimeout s.optAbsoluteTimeout, .pidFile s.pidFile] ++
  s.ifname.toList.map .ifname ++ s.fname.toList.map .fname ++
  s.numberFilter.toList.map .numberFilter ++
  (if s.optT38only then [.t38only] else []) ++
  (if pos : 1 ≤ s.optPcapBufferSize.toInt then [.pcapBufferSize s.optPcapBufferSize pos] else []) ++
  (if s.optFork then [] else [.foreground]) ++
  (if s.optPromisc then [] else [.notPromisc]) ++
  (if s.optPacketbuffered then [.packetbuffered] else []) ++
  (s.triggers .open).map (fun cmd => .trigger .open (some cmd)) ++
  (s.triggers .close).map (fun cmd => .trigger .close (some cmd))

/-- The settings after assignments. -/
def Settings.assign (s : Settings) (xs : List Setting) : Settings := xs.foldl Setting.apply s

namespace Settings

variable (s : Settings)

lemma assign_append (xs ys : List Setting) : s.assign (xs ++ ys) = (s.assign xs).assign ys :=
  List.foldl_append

/-- The options of assignments make them. -/
lemma readOptions_assign {xs : List Setting} (hxs : ∀ cond, .trigger cond none ∉ xs) :
    readOptions s (xs.map Setting.opt) = .ok (s.assign xs) := by
  induction xs generalizing s with
  | nil => rfl
  | cons x xs ih =>
    have hx : ∀ cond, x ≠ .trigger cond none := fun cond h => hxs cond (h ▸ List.mem_cons_self)
    rw [readOptions, List.map_cons, List.foldlM_cons, Setting.readOpt_opt hx]
    exact ih (x.apply s) fun cond hmem => hxs cond (List.mem_cons_of_mem x hmem)

/-- Every trigger of the settings has a command. -/
lemma noCommand_notMem_assignments (cond : TriggerCond) : .trigger cond none ∉ s.assignments := by
  simp only [assignments, List.mem_append, not_or]
  refine ⟨⟨⟨⟨⟨⟨⟨⟨⟨⟨?_, ?_⟩, ?_⟩, ?_⟩, ?_⟩, ?_⟩, ?_⟩, ?_⟩, ?_⟩, ?_⟩, ?_⟩ <;>
    simp

/-! Assignments that are made only for some settings. -/

lemma assign_ifname (v : Option Bytes) :
    s.assign (v.toList.map .ifname) = { s with ifname := v.or s.ifname } := by
  cases v <;> rfl

lemma assign_fname (v : Option Bytes) :
    s.assign (v.toList.map .fname) = { s with fname := v.or s.fname } := by
  cases v <;> rfl

lemma assign_numberFilter (v : Option Bytes) :
    s.assign (v.toList.map .numberFilter) = { s with numberFilter := v.or s.numberFilter } := by
  cases v <;> rfl

lemma assign_t38only (b : Bool) :
    s.assign (if b then [.t38only] else []) = { s with optT38only := b || s.optT38only } := by
  cases b <;> rfl

lemma assign_foreground (b : Bool) :
    s.assign (if b then [] else [.foreground]) = { s with optFork := b && s.optFork } := by
  cases b <;> rfl

lemma assign_notPromisc (b : Bool) :
    s.assign (if b then [] else [.notPromisc]) = { s with optPromisc := b && s.optPromisc } := by
  cases b <;> rfl

lemma assign_packetbuffered (b : Bool) : s.assign (if b then [.packetbuffered] else []) =
    { s with optPacketbuffered := b || s.optPacketbuffered } := by
  cases b <;> rfl

lemma assign_pcapBufferSize {size : Int32} (hsize : 0 ≤ size.toInt) (h : s.optPcapBufferSize = 0) :
    s.assign (if pos : 1 ≤ size.toInt then [.pcapBufferSize size pos] else []) =
      { s with optPcapBufferSize := size, pcapBufferSize_nonneg := hsize } := by
  split
  · rfl
  · have hzero : size = 0 := Int32.toInt.inj (by rw [Int32.toInt_zero]; omega)
    subst hzero
    exact Settings.ext rfl rfl rfl rfl rfl rfl rfl rfl rfl h rfl rfl rfl rfl rfl rfl

/-- Triggers are entered behind those that are there. -/
lemma assign_triggers (cond : TriggerCond) (cmds : List TriggerCommand) :
    s.assign (cmds.map fun cmd => .trigger cond (some cmd)) =
      { s with triggers := Function.update s.triggers cond (s.triggers cond ++ cmds) } := by
  induction cmds generalizing s with
  | nil =>
    rw [List.append_nil, Function.update_eq_self]
    rfl
  | cons cmd cmds ih =>
    rw [List.map_cons, assign, List.foldl_cons, ← assign, ih]
    simp [Setting.apply, List.append_assoc]

/-- **The assignments set everything**, whatever the default template is. -/
theorem assign_assignments (fntemplate : Bytes) :
    (start fntemplate).assign s.assignments = s := by
  simp only [assignments, assign_append, assign_ifname, assign_fname, assign_numberFilter,
    assign_t38only, assign_foreground, assign_notPromisc, assign_packetbuffered, assign_triggers]
  rw [assign_pcapBufferSize _ s.pcapBufferSize_nonneg rfl]
  ext1
  case triggers =>
    funext cond
    cases cond <;> rfl
  all_goals simp [start, assign, Setting.apply]

end Settings

/-! ### The filter expression -/

/-- The words joined by blanks, without the empty ones in front. -/
def filterText (words : List Bytes) : Bytes := List.intercalate [32] (words.dropWhile (· = []))

lemma intercalate_eq_flatMap (word : Bytes) (ws : List Bytes) :
    List.intercalate [32] (word :: ws) = word ++ ws.flatMap (32 :: ·) := by
  induction ws generalizing word with
  | nil => exact List.append_nil _ ▸ List.intercalate_singleton
  | cons w ws ih =>
    rw [List.intercalate_cons_cons, ih, List.flatMap_cons, List.append_assoc]
    rfl

lemma filterStep_nil (word : Bytes) :
    filterStep [] word = strcat maxPcapFilterExpression [] word := by
  rw [filterStep, if_pos rfl, Option.bind_some]

/-- The blank fits if the word does. -/
lemma filterStep_of_ne {exp : Bytes} (hne : exp ≠ []) (word : Bytes) :
    filterStep exp word = strcat maxPcapFilterExpression exp (32 :: word) := by
  rw [filterStep, if_neg hne]
  unfold strcat
  simp only [List.length_cons, List.length_nil]
  split
  · rw [Option.bind_some, List.append_assoc, List.length_append, List.length_singleton, add_assoc,
      add_comm 1, List.singleton_append]
  · rw [if_neg (by omega), Option.bind_none]

/-- Words behind an expression that has begun. -/
lemma foldlM_filterStep (ws : List Bytes) (exp : Bytes) (hne : exp ≠ [])
    (hexp : exp.length < maxPcapFilterExpression) : ws.foldlM filterStep exp =
      strcat maxPcapFilterExpression exp (ws.flatMap (32 :: ·)) := by
  induction ws generalizing exp with
  | nil =>
    rw [List.flatMap_nil, strcat, List.append_nil, if_pos (by simpa using hexp)]
    rfl
  | cons word ws ih =>
    rw [List.foldlM_cons, filterStep_of_ne hne, List.flatMap_cons]
    by_cases hroom : exp.length + (32 :: word).length < maxPcapFilterExpression
    · have hword : strcat maxPcapFilterExpression exp (32 :: word) = some (exp ++ 32 :: word) :=
        if_pos hroom
      have hrest := ih (exp ++ 32 :: word) (by simp)
        (by rwa [List.length_append])
      rw [hword]
      refine hrest.trans ?_
      simp only [strcat, List.length_append, List.append_assoc, add_assoc]
    · have hword : strcat maxPcapFilterExpression exp (32 :: word) = none := if_neg hroom
      rw [hword, strcat, if_neg]
      · rfl
      · rw [List.length_append]
        omega

/-- **The filter expression** is overrun exactly when the joined words do not fit its array with
their terminator. -/
lemma filterExp_eq (words : List Bytes) :
    filterExp words = strcat maxPcapFilterExpression [] (filterText words) := by
  induction words with
  | nil => rfl
  | cons word words ih =>
    by_cases hword : word = []
    · rw [hword, filterText, List.dropWhile_cons_of_pos (by simp)]
      exact ih
    · rw [filterText, List.dropWhile_cons_of_neg (by simpa using hword), intercalate_eq_flatMap,
        filterExp, List.foldlM_cons, filterStep_nil]
      by_cases hroom : word.length < maxPcapFilterExpression
      · have hfirst : strcat maxPcapFilterExpression [] word = some word :=
          if_pos (by simpa using hroom)
        rw [hfirst]
        refine (foldlM_filterStep words word hword hroom).trans ?_
        simp only [strcat, List.length_append, List.length_nil, List.nil_append, zero_add]
      · have hfirst : strcat maxPcapFilterExpression [] word = none :=
          if_neg (by simpa using hroom)
        rw [hfirst, strcat, if_neg]
        · rfl
        · rw [List.length_append]
          omega

/-! ### The command line -/

/-- A command line for settings and other words. -/
def Settings.argv (s : Settings) (words : List Bytes) : List Bytes :=
  (s.assignments.map Setting.opt).flatMap Opt.words ++ ascii "--" :: words

/-- **`main` reads back the command line of settings**, whatever the default template is, and
whether or not `getopt` passes over operands. -/
theorem startup_argv (posix : Bool) (fntemplate : Bytes) (s : Settings) (words : List Bytes) :
    startup posix fntemplate (s.argv words) = s.withFilter words := by
  have hlisted : ∀ opt ∈ s.assignments.map Setting.opt, opt.Listed optstring := by
    intro opt hopt
    obtain ⟨x, -, rfl⟩ := List.mem_map.mp hopt
    exact x.listed_opt
  have hgetopt : getopt optstring posix none (s.argv words) =
      (s.assignments.map Setting.opt, words) :=
    getopt_words (by decide +kernel) hlisted words
  have hread : readOptions (.start fntemplate) (s.assignments.map Setting.opt) = .ok s := by
    rw [Settings.readOptions_assign _ s.noCommand_notMem_assignments, Settings.assign_assignments]
  rw [startup, hgetopt]
  simp only [hread]
  rfl

/-- What is accepted has a source of packets and an expression that fits. -/
lemma withFilter_eq_ok_iff {s t : Settings} {words : List Bytes} {exp : Bytes} :
    s.withFilter words = .ok (t, exp) ↔ t = s ∧ exp = filterText words ∧
      exp.length < maxPcapFilterExpression ∧ ¬(s.fname = none ∧ s.ifname = none) := by
  rw [Settings.withFilter, filterExp_eq, strcat, List.length_nil, Nat.zero_add, List.nil_append]
  constructor
  · intro h
    split at h
    · cases h
    · rename_i exp' hexp
      split at hexp
      · rename_i hlt
        obtain rfl := Option.some.inj hexp
        split at h
        · cases h
        · rename_i hsource
          obtain ⟨rfl, rfl⟩ := Prod.mk.inj (Except.ok.inj h)
          exact ⟨rfl, rfl, hlt, hsource⟩
      · cases hexp
  · rintro ⟨rfl, rfl, hlt, hsource⟩
    simp only [if_pos hlt, if_neg hsource]

/-- The settings of a command line that is accepted are those of one with the same result. -/
lemma startup_eq_ok_iff {posix : Bool} {fntemplate : Bytes} {argv : List Bytes} {s : Settings}
    {exp : Bytes} : startup posix fntemplate argv = .ok (s, exp) ↔
      readOptions (.start fntemplate) (getopt optstring posix none argv).1 = .ok s ∧
        s.withFilter (getopt optstring posix none argv).2 = .ok (s, exp) := by
  rw [startup]
  rcases readOptions (.start fntemplate) (getopt optstring posix none argv).1 with e | t
  · refine iff_of_false ?_ ?_
    · rintro ⟨⟩
    · rintro ⟨⟨⟩, -⟩
  · constructor
    · intro h
      have hfilter : t.withFilter (getopt optstring posix none argv).2 = .ok (s, exp) := h
      obtain ⟨rfl, -⟩ := withFilter_eq_ok_iff.mp hfilter
      exact ⟨rfl, hfilter⟩
    · rintro ⟨ht, h⟩
      obtain rfl := Except.ok.inj ht
      exact h

/-- **The command line of what has been read.**  If `main` accepts a command line, it reads the same
settings and the same filter expression from the command line that is made for them, on every system
and for every user. -/
theorem startup_canonical {posix : Bool} {fntemplate : Bytes} {argv : List Bytes} {s : Settings}
    {exp : Bytes} (h : startup posix fntemplate argv = .ok (s, exp)) (posix' : Bool)
    (fntemplate' : Bytes) : startup posix' fntemplate' (s.argv [exp]) = .ok (s, exp) := by
  obtain ⟨-, hfilter⟩ := startup_eq_ok_iff.mp h
  obtain ⟨-, -, hlt, hsource⟩ := withFilter_eq_ok_iff.mp hfilter
  have hexp : exp = filterText [exp] := by
    cases exp with
    | nil => rfl
    | cons c exp =>
      rw [filterText, List.dropWhile_cons_of_neg (by simp), List.intercalate_singleton]
  rw [startup_argv, withFilter_eq_ok_iff]
  exact ⟨rfl, hexp, hlt, hsource⟩

/-- Options that share a word, and a filter of two words. -/
theorem startup_canonical_cluster :
    ∃ s, startup false (defaultFntemplate none) [ascii "-fv2", ascii "port", ascii "-ieth0",
        ascii "-t", ascii "close:exec:/bin/gzip  -9 %.", ascii "5060"] =
          .ok (s, ascii "port 5060") ∧
      startup true [] (s.argv [ascii "port 5060"]) = .ok (s, ascii "port 5060") := by
  have h : ∃ s, startup false (defaultFntemplate none) [ascii "-fv2", ascii "port", ascii "-ieth0",
      ascii "-t", ascii "close:exec:/bin/gzip  -9 %.", ascii "5060"] =
        .ok (s, ascii "port 5060") := ⟨_, rfl⟩
  obtain ⟨s, hs⟩ := h
  exact ⟨s, hs, startup_canonical hs true []⟩

end PcapSipDump
