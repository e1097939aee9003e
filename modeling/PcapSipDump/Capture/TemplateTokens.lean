import PcapSipDump.Capture.TemplateText

/-!
# The tokens of a template

`strftime` reads a format from left to right: a percent sign and the next character are one token,
so `%%` is one.  `expand_dir_template` only looks at a percent sign and the character behind it.
The two readings agree but for a token `%%` that has an `f`, a `t` or an `i` behind it: its second
percent sign is then taken for the start of a code (`template_tokens_iff`).
-/

namespace PcapSipDump

open Lib.CString

/-! ### Tokens -/

/-- What `strftime` reads at a time: a character, or a percent sign with the character behind it. -/
inductive Token where
  | char (c : UInt8)
  | directive (c : UInt8)
deriving DecidableEq

/-- The tokens of a format.  A percent sign at its end stands alone. -/
def tokens : Bytes → List Token
  | [] => []
  | [c] => [.char c]
  | c0 :: c1 :: t =>
      if c0 = 37 then .directive c1 :: tokens t else .char c0 :: tokens (c1 :: t)

/-- The directives of a format. -/
def directives (format : Bytes) : List UInt8 :=
  (tokens format).filterMap fun
    | .char _ => none
    | .directive c => some c

lemma tokens_char {c : UInt8} (hc : c ≠ 37) (t : Bytes) :
    tokens (c :: t) = .char c :: tokens t := by
  cases t with
  | nil => rfl
  | cons c1 t => rw [tokens, if_neg hc]

lemma tokens_directive (c : UInt8) (t : Bytes) :
    tokens (37 :: c :: t) = .directive c :: tokens t := by
  rw [tokens, if_pos rfl]

/-- A token that is a character is the first character. -/
lemma eq_of_tokens_cons {c d : UInt8} {t : Bytes} {ts : List Token}
    (h : tokens (d :: t) = .char c :: ts) : c = d := by
  cases t with
  | nil => exact (Token.char.inj (List.cons.inj h).1).symm
  | cons c1 t =>
    rw [tokens] at h
    split_ifs at h
    · simp at h
    · exact (Token.char.inj (List.cons.inj h).1).symm

section Substitution

variable (caller called callid : Bytes)

/-- What a token stands for: a code for its string, every other token for itself. -/
def Token.text : Token → Bytes
  | .char c => [c]
  | .directive c =>
      match templateString caller called callid c with
      | some v => sanitize v
      | none => [37, c]

/-- The format with each of its tokens `%f`, `%t` and `%i` replaced. -/
def substitute (format : Bytes) : Bytes :=
  (tokens format).flatMap (Token.text caller called callid)

/-- A token `%%` is followed by the character of a code whose string finds room where the second
percent sign is to stand. -/
def Misread (ts : List Token) (room : ℕ) : Prop :=
  ∃ before c v after, ts = before ++ .directive 37 :: .char c :: after ∧
    templateString caller called callid c = some v ∧
    (before.flatMap (Token.text caller called callid)).length + 1 + v.length < room

variable {caller called callid}

/-- A directive that is no code stands for itself. -/
lemma text_of_none {c : UInt8} (hv : templateString caller called callid c = none) :
    (Token.directive c).text caller called callid = [37, c] := by
  simp only [Token.text, hv]

/-- A code stands for its string. -/
lemma text_of_some {c : UInt8} {v : Bytes} (hv : templateString caller called callid c = some v) :
    (Token.directive c).text caller called callid = sanitize v := by
  simp only [Token.text, hv]

lemma misread_cons {tok : Token} {ts : List Token} {room : ℕ}
    (hhead : ∀ c ts' v, tok = .directive 37 → ts = .char c :: ts' →
      templateString caller called callid c = some v → room ≤ 1 + v.length) :
    Misread caller called callid (tok :: ts) room ↔
      Misread caller called callid ts (room - (tok.text caller called callid).length) := by
  constructor
  · rintro ⟨before, c, v, after, hts, hv, hroom⟩
    cases before with
    | nil =>
      obtain ⟨htok, hts⟩ := List.cons.inj hts
      have hle := hhead c after v htok hts hv
      rw [List.flatMap_nil, List.length_nil] at hroom
      omega
    | cons tok' before =>
      obtain ⟨rfl, hrest⟩ := List.cons.inj hts
      rw [List.flatMap_cons, List.length_append] at hroom
      exact ⟨before, c, v, after, hrest, hv, by omega⟩
  · rintro ⟨before, c, v, after, rfl, hv, hroom⟩
    refine ⟨tok :: before, c, v, after, rfl, hv, ?_⟩
    rw [List.flatMap_cons, List.length_append]
    omega

/-! ### The rounds of the loop, by tokens -/

variable (caller called callid)

/-- What the loop does at the start of the rest of a template. -/
inductive Round (t : Bytes) (room : UInt64) : Prop
  /-- It puts out what the first token stands for. -/
  | same (tok : Token) (rest : Bytes) (htokens : tokens t = tok :: tokens rest)
      (hlt : rest.length < t.length)
      (htext : expandFrom caller called callid t room = tok.text caller called callid ++
        expandFrom caller called callid rest
          (room - UInt64.ofNat (tok.text caller called callid).length))
      (hhead : ∀ c ts v, tok = .directive 37 → tokens rest = .char c :: ts →
        templateString caller called callid c = some v → ¬UInt64.ofNat v.length < room - 1)
  /-- It takes the second percent sign of a token for the start of a code. -/
  | misread (c : UInt8) (v rest : Bytes) (ht : t = 37 :: 37 :: c :: rest)
      (hv : templateString caller called callid c = some v)
      (hfits : UInt64.ofNat v.length < room - 1)
  /-- There is no room for the string of a code. -/
  | full (c : UInt8) (v rest : Bytes) (ht : t = 37 :: c :: rest)
      (hv : templateString caller called callid c = some v)
      (hfull : ¬UInt64.ofNat v.length < room)

variable {caller called callid}

lemma sub_two (room : UInt64) : room - 1 - 1 = room - UInt64.ofNat 2 := by grind

/-- A round at a token `%%` that is not the last one. -/
lemma round_percent (c : UInt8) (t : Bytes) (room : UInt64) :
    Round caller called callid (37 :: 37 :: c :: t) room := by
  have hpercent : templateString caller called callid 37 = none := rfl
  have hlt : (c :: t).length < (37 :: 37 :: c :: t).length :=
    Nat.lt_succ_of_lt (Nat.lt_succ_self _)
  -- the second percent sign of the token, and the character behind it
  have hsame (hsecond : expandFrom caller called callid (37 :: c :: t) (room - 1) =
        37 :: expandFrom caller called callid (c :: t) (room - 1 - 1))
      (hroom : ∀ v, templateString caller called callid c = some v →
        ¬UInt64.ofNat v.length < room - 1) :
      Round caller called callid (37 :: 37 :: c :: t) room := by
    refine .same (.directive 37) (c :: t) (tokens_directive 37 _) hlt ?_ ?_
    · rw [text_of_none hpercent, expandFrom_percent hpercent, hsecond, sub_two]
      rfl
    · rintro c' ts v - hts hc
      rw [eq_of_tokens_cons hts] at hc
      exact hroom v hc
  rcases hv : templateString caller called callid c with _ | v
  · exact hsame (expandFrom_percent hv t _) (by simp [hv])
  · by_cases hfits : UInt64.ofNat v.length < room - 1
    · exact .misread c v t rfl hv hfits
    · refine hsame ?_ ?_
      · rw [expandFrom_code hv, if_neg hfits]
      · rintro w hw
        rw [hv] at hw
        rwa [← Option.some.inj hw]

/-- Each round is one of these. -/
lemma exists_round {t : Bytes} (ht : t ≠ []) (room : UInt64) :
    Round caller called callid t room := by
  obtain ⟨c0, t, rfl⟩ := List.exists_cons_of_ne_nil ht
  by_cases hc0 : c0 = 37
  swap
  · exact .same (.char c0) t (tokens_char hc0 t) (Nat.lt_succ_self _) (expandFrom_char hc0 t room)
      (by simp)
  subst hc0
  cases t with
  | nil => exact .same (.char 37) [] rfl (Nat.lt_succ_self _) rfl (by simp)
  | cons c1 t =>
    have hlt : t.length < (37 :: c1 :: t).length := Nat.lt_succ_of_lt (Nat.lt_succ_self _)
    rcases hv : templateString caller called callid c1 with _ | v
    · by_cases hc1 : c1 = 37
      · subst hc1
        cases t with
        | nil => exact .same (.directive 37) [] rfl hlt rfl (by rintro c ts v - ⟨⟩)
        | cons c2 t => exact round_percent c2 t room
      · refine .same (.directive c1) t (tokens_directive c1 t) hlt ?_ ?_
        · rw [text_of_none hv, expandFrom_percent hv, expandFrom_char hc1, sub_two]
          rfl
        · rintro c ts v htok - -
          exact absurd (Token.directive.inj htok) hc1
    · have hc1 : c1 ≠ 37 := (code_ne hv).1
      by_cases hfits : UInt64.ofNat v.length < room
      · refine .same (.directive c1) t (tokens_directive c1 t) hlt ?_ ?_
        · rw [text_of_some hv, expandFrom_code hv, if_pos hfits, length_sanitize]
        · rintro c ts v' htok - -
          exact absurd (Token.directive.inj htok) hc1
      · exact .full c1 v t rfl hv hfits

/-! ### When the loop goes wrong -/

lemma toNat_ofNat_length (hshort : Short caller called callid) {c : UInt8} {v : Bytes}
    (hv : templateString caller called callid c = some v) :
    (UInt64.ofNat v.length).toNat = v.length :=
  UInt64.toNat_ofNat_of_lt' ((hshort hv).trans (by decide))

lemma toNat_sub_ofNat {room : UInt64} {n : ℕ} (h : n < room.toNat) :
    (room - UInt64.ofNat n).toNat = room.toNat - n := by
  have hn : (UInt64.ofNat n).toNat = n := UInt64.toNat_ofNat_of_lt' (h.trans room.toNat_lt)
  rw [UInt64.toNat_sub_of_le _ _ (UInt64.le_iff_toNat_le.mpr (by omega)), hn]

lemma substitute_of_tokens {t rest : Bytes} {tok : Token} (h : tokens t = tok :: tokens rest) :
    substitute caller called callid t =
      tok.text caller called callid ++ substitute caller called callid rest := by
  rw [substitute, h, List.flatMap_cons, substitute]

lemma substitute_code {c : UInt8} {v : Bytes}
    (hv : templateString caller called callid c = some v) (rest : Bytes) :
    substitute caller called callid (37 :: c :: rest) =
      sanitize v ++ substitute caller called callid rest := by
  rw [substitute_of_tokens (tokens_directive c rest), text_of_some hv]

lemma substitute_misread {c : UInt8} {v : Bytes}
    (hv : templateString caller called callid c = some v) (rest : Bytes) :
    substitute caller called callid (37 :: 37 :: c :: rest) =
      37 :: 37 :: c :: substitute caller called callid rest := by
  rw [substitute_of_tokens (tokens_directive 37 _),
    substitute_of_tokens (tokens_char (code_ne hv).1 rest)]
  rfl

/-- What is put out when a percent sign of a token is taken for the start of a code. -/
lemma expandFrom_misread {c : UInt8} {v : Bytes}
    (hv : templateString caller called callid c = some v) {room : UInt64}
    (hfits : UInt64.ofNat v.length < room - 1) (rest : Bytes) :
    expandFrom caller called callid (37 :: 37 :: c :: rest) room =
      37 :: (sanitize v ++ expandFrom caller called callid rest
        (room - UInt64.ofNat (1 + v.length))) := by
  have hroom : room - 1 - UInt64.ofNat v.length = room - UInt64.ofNat (1 + v.length) := by
    rw [UInt64.ofNat_add]
    grind
  have hpercent : templateString caller called callid 37 = none := rfl
  rw [expandFrom_percent hpercent, expandFrom_code hv, if_pos hfits, hroom]

/-- A text without a separator is in front of the first one. -/
lemma append_eq_append_cons {x y w z : Bytes} {d : UInt8} (hx : d ∉ x)
    (h : x ++ y = w ++ d :: z) : ∃ w', w = x ++ w' ∧ y = w' ++ d :: z := by
  rcases List.append_eq_append_iff.mp h with ⟨w', hw, hy⟩ | ⟨x', hxw, hz⟩
  · exact ⟨w', hw, hy⟩
  · cases x' with
    | nil => exact ⟨[], by simpa using hxw.symm, by simpa using hz.symm⟩
    | cons e x' =>
      obtain ⟨rfl, -⟩ := List.cons.inj hz
      exact absurd (hxw ▸ List.mem_append_right w List.mem_cons_self) hx

/-- When the expansion fits, it does not go on with a substitution behind something else. -/
lemma expandFrom_ne_append (hshort : Short caller called callid) {t w : Bytes} {room : UInt64}
    (hw : w ≠ []) (hfits : (expandFrom caller called callid t room).length < room.toNat) :
    expandFrom caller called callid t room ≠ w ++ substitute caller called callid t := by
  induction hn : t.length using Nat.strong_induction_on generalizing t w room with
  | _ n ih =>
    subst hn
    intro heq
    by_cases ht : t = []
    · subst ht
      exact hw (List.append_eq_nil_iff.mp heq.symm).1
    cases @exists_round caller called callid t ht room with
    | same tok rest htokens hlt htext hhead =>
      rw [htext, substitute_of_tokens htokens, ← List.append_assoc] at heq
      rw [htext, List.length_append] at hfits
      set x := tok.text caller called callid
      -- behind the token the same holds for the word turned by its length
      have hturn := congrArg (List.drop x.length) heq
      rw [List.drop_left, List.drop_append_of_le_length (by simp)] at hturn
      refine ih rest.length hlt ?_ ?_ rfl hturn
      · intro hnil
        have hlen := congrArg List.length hnil
        rw [List.length_drop, List.length_append, List.length_nil] at hlen
        have hpos := List.length_pos_iff.mpr hw
        omega
      · rw [toNat_sub_ofNat (by omega)]
        omega
    | misread c v rest ht' hv hv' =>
      subst ht'
      rw [expandFrom_misread hv hv'] at heq hfits
      rw [substitute_misread hv] at heq
      obtain ⟨d, w, rfl⟩ := List.exists_cons_of_ne_nil hw
      obtain ⟨-, hrest⟩ := List.cons.inj heq
      -- the string has no percent sign, so it is in front of those of the token
      obtain ⟨w', rfl, hbehind⟩ := append_eq_append_cons (not_mem_sanitize_percent v) hrest
      rw [List.length_cons, List.length_append, length_sanitize] at hfits
      have hnext : expandFrom caller called callid rest (room - UInt64.ofNat (1 + v.length)) =
          (w' ++ [37, 37, c]) ++ substitute caller called callid rest := by
        rw [hbehind, List.append_assoc]
        rfl
      have hlt : rest.length < (37 :: 37 :: c :: rest).length := by
        simp only [List.length_cons]
        omega
      refine ih rest.length hlt (by simp) ?_ rfl hnext
      rw [toNat_sub_ofNat (by omega)]
      omega
    | full c v rest ht' hv hfull =>
      subst ht'
      rw [UInt64.lt_iff_toNat_lt, toNat_ofNat_length hshort hv] at hfull
      have hlen := congrArg List.length heq
      rw [substitute_code hv, List.length_append, List.length_append, length_sanitize] at hlen
      omega

/-- The expansion is the substitution exactly when no token is misread. -/
lemma expandFrom_eq_iff (hshort : Short caller called callid) {t : Bytes} {room : UInt64}
    (hfits : (substitute caller called callid t).length < room.toNat) :
    expandFrom caller called callid t room = substitute caller called callid t ↔
      ¬Misread caller called callid (tokens t) room.toNat := by
  induction hn : t.length using Nat.strong_induction_on generalizing t room with
  | _ n ih =>
    subst hn
    have hone : (room - 1).toNat = room.toNat - 1 :=
      UInt64.toNat_sub_of_le _ _ (UInt64.le_iff_toNat_le.mpr (show 1 ≤ room.toNat by omega))
    by_cases ht : t = []
    · subst ht
      refine iff_of_true rfl ?_
      rintro ⟨before, c, v, after, hts, -⟩
      simp [tokens] at hts
    cases @exists_round caller called callid t ht room with
    | same tok rest htokens hlt htext hhead =>
      rw [substitute_of_tokens htokens, List.length_append] at hfits
      have hsub : (room - UInt64.ofNat (tok.text caller called callid).length).toNat =
          room.toNat - (tok.text caller called callid).length := toNat_sub_ofNat (by omega)
      rw [htext, substitute_of_tokens htokens, List.append_right_inj, htokens, misread_cons,
        ← hsub]
      · exact ih rest.length hlt (by rw [hsub]; omega) rfl
      · intro c ts v htok hts hv
        have hroom := hhead c ts v htok hts hv
        rw [UInt64.lt_iff_toNat_lt, toNat_ofNat_length hshort hv, hone] at hroom
        omega
    | misread c v rest ht' hv hv' =>
      subst ht'
      rw [UInt64.lt_iff_toNat_lt, toNat_ofNat_length hshort hv, hone] at hv'
      have htokens : tokens (37 :: 37 :: c :: rest) = .directive 37 :: .char c :: tokens rest := by
        rw [tokens_directive, tokens_char (code_ne hv).1]
      refine iff_of_false (fun heq => ?_) (not_not.mpr
        ⟨[], c, v, tokens rest, htokens, hv, by rw [List.flatMap_nil, List.length_nil]; omega⟩)
      rw [substitute_misread hv] at heq hfits
      rw [expandFrom_misread hv (by rwa [UInt64.lt_iff_toNat_lt, toNat_ofNat_length hshort hv,
        hone])] at heq
      -- the string is empty, since a percent sign has to follow the first one
      obtain ⟨w, hw, hbehind⟩ :=
        append_eq_append_cons (w := []) (not_mem_sanitize_percent v) (List.cons.inj heq).2
      obtain ⟨hnil, rfl⟩ := List.append_eq_nil_iff.mp hw.symm
      have hlen : v.length = 0 := by rw [← length_sanitize, hnil, List.length_nil]
      have hnext := congrArg List.length hbehind
      simp only [List.length_cons, List.nil_append] at hfits hnext
      refine expandFrom_ne_append hshort (w := [37, c]) (by simp) ?_ hbehind
      rw [hnext, toNat_sub_ofNat (by omega)]
      omega
    | full c v rest ht' hv hfull =>
      subst ht'
      rw [UInt64.lt_iff_toNat_lt, toNat_ofNat_length hshort hv] at hfull
      rw [substitute_code hv, List.length_append, length_sanitize] at hfits
      omega

/-! ### The directives of the substitution -/

lemma directives_append {x : Bytes} (hx : 37 ∉ x) (format : Bytes) :
    directives (x ++ format) = directives format := by
  induction x with
  | nil => rfl
  | cons c x ih =>
    have hc : c ≠ 37 := fun h => hx (h ▸ List.mem_cons_self)
    rw [List.cons_append, directives, tokens_char hc, List.filterMap_cons_none rfl, ← directives,
      ih fun h => hx (List.mem_cons_of_mem c h)]

lemma directives_cons (c : UInt8) (format : Bytes) :
    directives (37 :: c :: format) = c :: directives format := by
  rw [directives, tokens_directive]
  rfl

/-- The strings of a packet add no directive, so those of the format are left, but for the codes. -/
lemma directives_substitute (format : Bytes) :
    directives (substitute caller called callid format) =
      (directives format).filter fun c => (templateString caller called callid c).isNone := by
  induction format using tokens.induct with
  | case1 => rfl
  | case2 c => rfl
  | case3 c1 t ih =>
    rw [directives_cons, substitute_of_tokens (tokens_directive c1 t)]
    rcases hv : templateString caller called callid c1 with _ | v
    · rw [List.filter_cons_of_pos (by simp [hv]), text_of_none hv, List.cons_append,
        List.cons_append, List.nil_append, directives_cons, ih]
    · rw [List.filter_cons_of_neg (by simp [hv]), text_of_some hv,
        directives_append (not_mem_sanitize_percent v), ih]
  | case4 c0 c1 t hc0 ih =>
    have hsingle : 37 ∉ [c0] := by simpa using fun h : 37 = c0 => hc0 h.symm
    rw [substitute_of_tokens (tokens_char hc0 (c1 :: t))]
    show directives ([c0] ++ _) = (directives ([c0] ++ c1 :: t)).filter _
    rw [directives_append hsingle, directives_append hsingle, ih]

end Substitution

/-- **Token substitution.**  When the substitution fits into the buffer, the string that is given to
`strftime` is the format with each token `%f`, `%t` and `%i` replaced, and has the other directives
of the format and no more, if and only if no token is misread. -/
theorem template_tokens_iff {format caller called callid : CStr}
    (hfits : (substitute caller.bytes called.bytes callid.bytes format.bytes).length <
      format.bytes.length + 256) :
    (expandDirTemplate format.bytes caller.bytes called.bytes callid.bytes =
        substitute caller.bytes called.bytes callid.bytes format.bytes ∧
      directives (expandDirTemplate format.bytes caller.bytes called.bytes callid.bytes) =
        (directives format.bytes).filter fun c =>
          (templateString caller.bytes called.bytes callid.bytes c).isNone) ↔
      ¬Misread caller.bytes called.bytes callid.bytes (tokens format.bytes)
        (format.bytes.length + 256) := by
  have hroom : (UInt64.ofNat (format.bytes.length + 256)).toNat = format.bytes.length + 256 := by
    have hlt := format.length_lt
    exact UInt64.toNat_ofNat_of_lt' (show _ < 2 ^ 64 by omega)
  have hexpand := expandFrom_eq_iff (short_cstr caller called callid) (by rwa [hroom])
  rw [hroom, ← expandDirTemplate] at hexpand
  rw [← hexpand]
  refine ⟨fun h => h.1, fun h => ⟨h, ?_⟩⟩
  rw [h, directives_substitute]

/-- The user `a` in a template without a percent sign of its own. -/
theorem template_tokens_plain :
    expandDirTemplate (ascii "%Y/%f") (ascii "a") (ascii "b") (ascii "1") =
        substitute (ascii "a") (ascii "b") (ascii "1") (ascii "%Y/%f") ∧
      directives (expandDirTemplate (ascii "%Y/%f") (ascii "a") (ascii "b") (ascii "1")) =
        (directives (ascii "%Y/%f")).filter fun c =>
          (templateString (ascii "a") (ascii "b") (ascii "1") c).isNone := by
  have hplain : ¬Misread (ascii "a") (ascii "b") (ascii "1") (tokens (ascii "%Y/%f"))
      ((ascii "%Y/%f").length + 256) := by
    rintro ⟨before, c, v, after, hts, -⟩
    have hmem : Token.directive 37 ∈ tokens (ascii "%Y/%f") := by
      rw [hts]
      exact List.mem_append_right before List.mem_cons_self
    exact absurd hmem (by decide +kernel)
  exact (@template_tokens_iff ⟨ascii "%Y/%f", by simp [ascii], by simp [ascii]⟩
    ⟨ascii "a", by simp [ascii], by simp [ascii]⟩ ⟨ascii "b", by simp [ascii], by simp [ascii]⟩
    ⟨ascii "1", by simp [ascii], by simp [ascii]⟩ (by decide +kernel)).mpr hplain

/-- In `%%f` the user is put behind a percent sign. -/
theorem template_tokens_false :
    ¬∀ format caller called callid : CStr,
      (substitute caller.bytes called.bytes callid.bytes format.bytes).length <
          format.bytes.length + 256 →
        expandDirTemplate format.bytes caller.bytes called.bytes callid.bytes =
          substitute caller.bytes called.bytes callid.bytes format.bytes := by
  intro h
  have heq := h ⟨ascii "%%f", by simp [ascii], by simp [ascii]⟩
    ⟨ascii "a", by simp [ascii], by simp [ascii]⟩ ⟨ascii "b", by simp [ascii], by simp [ascii]⟩
    ⟨ascii "1", by simp [ascii], by simp [ascii]⟩ (by decide +kernel)
  exact absurd heq (by decide +kernel)

end PcapSipDump
