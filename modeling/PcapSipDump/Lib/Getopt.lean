import PcapSipDump.Lib.CString

/-!
# The options of a command line

`getopt` of the GNU C library, for options of one letter.  Several options may share a word, an
argument stands behind its letter in the same word or in the next word, and `--` ends the options.
Words that are no options are operands, which are passed over unless `POSIXLY_CORRECT` is set.
`getopt_words` says that options given one by one, and operands behind `--`, are read as they are.
-/

namespace Lib.Getopt

open CString

/-- What a call of `getopt` returns: an option, or `?` for a letter that is no option or has no
argument where it needs one. -/
inductive Opt where
  | flag (c : UInt8)
  | arg (c : UInt8) (optarg : Bytes)
  | bad (c : UInt8)
deriving DecidableEq

/-- The letter of an option. -/
def Opt.letter : Opt → UInt8
  | flag c => c
  | arg c _ => c
  | bad c => c

/-- Whether the letter `c` has an argument, if it is an option: a colon behind it in the string of
options says so. -/
def takesArg (optstring : Bytes) (c : UInt8) : Option Bool :=
  if c = 58 ∨ c = 59 then none
  else
    match optstring.dropWhile (· ≠ c) with
    | [] => none
    | _ :: rest => some (rest.headD 0 = 58)

variable (optstring : Bytes) (posix : Bool)

/-- The options in a word, and the last one of them if its argument is the next word. -/
def shortOpts : Bytes → List Opt × Option UInt8
  | [] => ([], none)
  | c :: cs =>
      match takesArg optstring c with
      | none => (.bad c :: (shortOpts cs).1, (shortOpts cs).2)
      | some false => (.flag c :: (shortOpts cs).1, (shortOpts cs).2)
      | some true => if cs = [] then ([], some c) else ([.arg c cs], none)

/-- The options and the operands in the words of a command line, where the first word may be the
argument of an option. -/
def getopt : Option UInt8 → List Bytes → List Opt × List Bytes
  | none, [] => ([], [])
  | some c, [] => ([.bad c], [])
  | some c, w :: ws => (.arg c w :: (getopt none ws).1, (getopt none ws).2)
  | none, w :: ws =>
      if w = ascii "--" then ([], ws)
      else
        match w with
        | 45 :: c :: cs =>
            let opts := shortOpts optstring (c :: cs)
            (opts.1 ++ (getopt opts.2 ws).1, (getopt opts.2 ws).2)
        | _ => if posix then ([], w :: ws) else ((getopt none ws).1, w :: (getopt none ws).2)

/-! ### Options given one by one -/

/-- The words for an option. -/
def Opt.words : Opt → List Bytes
  | flag c => [[45, c]]
  | arg c optarg => [[45, c], optarg]
  | bad c => [[45, c]]

/-- The option is one of the string of options. -/
def Opt.Listed (opt : Opt) : Prop :=
  match opt with
  | flag c => takesArg optstring c = some false
  | arg c _ => takesArg optstring c = some true
  | bad _ => False

variable {optstring posix} {opt : Opt}

/-- A letter of the string of options does not make the word that ends the options. -/
lemma ne_dashes (hdash : takesArg optstring 45 = none) {c : UInt8} {b : Bool}
    (hc : takesArg optstring c = some b) : [45, c] ≠ ascii "--" := by
  intro h
  obtain rfl : c = 45 := (List.cons.inj (List.cons.inj h).2).1
  rw [hdash] at hc
  cases hc

/-- An option in front of other words. -/
lemma getopt_opt (hdash : takesArg optstring 45 = none) (hopt : opt.Listed optstring)
    (ws : List Bytes) : getopt optstring posix none (opt.words ++ ws) =
      (opt :: (getopt optstring posix none ws).1, (getopt optstring posix none ws).2) := by
  cases opt with
  | flag c =>
    have hc : takesArg optstring c = some false := hopt
    have hshort : shortOpts optstring [c] = ([.flag c], none) := by
      simp only [shortOpts, hc]
    simp only [Opt.words, List.singleton_append, getopt, if_neg (ne_dashes hdash hc), hshort]
  | arg c optarg =>
    have hc : takesArg optstring c = some true := hopt
    have hshort : shortOpts optstring [c] = ([], some c) := by
      simp only [shortOpts, hc, if_pos]
    simp only [Opt.words, List.cons_append, List.nil_append, getopt,
      if_neg (ne_dashes hdash hc), hshort]
  | bad c => exact hopt.elim

/-- **Options given one by one**, and operands behind `--`, are read as they are. -/
theorem getopt_words (hdash : takesArg optstring 45 = none) {opts : List Opt}
    (hopts : ∀ opt ∈ opts, opt.Listed optstring) (operands : List Bytes) :
    getopt optstring posix none (opts.flatMap Opt.words ++ ascii "--" :: operands) =
      (opts, operands) := by
  induction opts with
  | nil =>
    rw [List.flatMap_nil, List.nil_append]
    unfold getopt
    exact if_pos rfl
  | cons opt opts ih =>
    obtain ⟨hopt, hopts⟩ := List.forall_mem_cons.mp hopts
    rw [List.flatMap_cons, List.append_assoc, getopt_opt hdash hopt, ih hopts]

end Lib.Getopt
