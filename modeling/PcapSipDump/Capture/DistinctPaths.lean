import PcapSipDump.Capture.FilePaths
import PcapSipDump.Capture.Recording
import PcapSipDump.Capture.ShellTrigger

/-!
# Whether two calls get two files

The default name of a file is made of the local time and of the caller, the callee and the Call-ID,
joined by hyphens after their translation by `asciisan`.  The translation and the joining lose
information, so two calls of one second can get the same path: exactly when their joined names
agree (`paths_differ_iff`).
-/

namespace PcapSipDump

open Lib Lib.CString

variable {o : Options} {host : Host} {p : Packet} {s : State}

/-! ### The default name -/

/-- An ordinary character or a code of the time in a file name. -/
inductive DateToken where
  | char (c : UInt8)
  | code (c : UInt8)

/-- The codes of the default name: year, month, day, hour, minute and second. -/
def dateCodes : Bytes := ascii "YmdHMS"

namespace DateToken

/-- The token in the template. -/
def format : DateToken → Bytes
  | .char c => [c]
  | .code c => [37, c]

/-- The characters are ordinary ones, and the codes those of the default name. -/
def Valid : DateToken → Prop
  | .char c => c ≠ 37
  | .code c => c ∈ dateCodes

instance : DecidablePred Valid
  | .char c => inferInstanceAs (Decidable (c ≠ 37))
  | .code c => inferInstanceAs (Decidable (c ∈ dateCodes))

end DateToken

/-- The part of the default name that is about the time, `/%Y%m%d/%H/%Y%m%d-%H%M%S-`. -/
def dateTokens : List DateToken :=
  let date : List DateToken := [.code 89, .code 109, .code 100]
  .char 47 :: date ++ [.char 47, .code 72, .char 47] ++ date ++
    [.char 45, .code 72, .code 77, .code 83, .char 45]

lemma valid_of_mem_dateTokens : ∀ tok ∈ dateTokens, tok.Valid := by decide +kernel

/-- The tokens as a template. -/
def dateFormat : Bytes := dateTokens.flatMap DateToken.format

/-- The part of the default name that is about the call. -/
def nameFormat : Bytes := ascii "%f-%t-%i.pcap"

/-- A directory without codes, followed by the default name. -/
def HasDefaultName (template : Bytes) : Prop :=
  ∃ dir, 37 ∉ dir ∧ 0 ∉ dir ∧ template = dir ++ (dateFormat ++ nameFormat)

/-- The default template is like this for root, and for every other user whose home directory has
no `%` and is short enough for the buffer. -/
lemma hasDefaultName_default {home : Option Bytes}
    (hhome : ∀ h ∈ home, 37 ∉ h ∧ 0 ∉ h ∧ h.length ≤ 450) :
    HasDefaultName (defaultFntemplate home) := by
  rcases home with _ | h
  · exact ⟨ascii "/var/spool/pcapsipdump", by decide +kernel, by decide +kernel, by decide +kernel⟩
  · obtain ⟨hpercent, hnul, hlen⟩ := hhome h rfl
    have hname : ascii "/%Y%m%d/%H/%Y%m%d-%H%M%S-%f-%t-%i.pcap" = dateFormat ++ nameFormat := by
      decide +kernel
    have hfits : (h ++ ascii "/.var/spool/pcapsipdump" ++
        ascii "/%Y%m%d/%H/%Y%m%d-%H%M%S-%f-%t-%i.pcap").length ≤ 511 := by
      have hrest : (ascii "/.var/spool/pcapsipdump").length +
          (ascii "/%Y%m%d/%H/%Y%m%d-%H%M%S-%f-%t-%i.pcap").length = 61 := by decide +kernel
      rw [List.length_append, List.length_append]
      omega
    refine ⟨h ++ ascii "/.var/spool/pcapsipdump", ?_, ?_, ?_⟩
    · rw [List.mem_append, not_or]
      exact ⟨hpercent, by decide +kernel⟩
    · rw [List.mem_append, not_or]
      exact ⟨hnul, by decide +kernel⟩
    · rw [← hname]
      exact List.take_of_length_le hfits

/-! ### The expansion of the default name -/

section Expansion

variable {caller called callid : Bytes}

lemma templateString_dateCodes : ∀ c ∈ dateCodes,
    c ≠ 37 ∧ templateString caller called callid c = none := by
  intro c hc
  have hletter : ∀ c ∈ dateCodes, c ≠ 37 ∧ c ≠ 102 ∧ c ≠ 116 ∧ c ≠ 105 := by decide +kernel
  obtain ⟨hpercent, hf, ht, hi⟩ := hletter c hc
  exact ⟨hpercent, by rw [templateString, if_neg hf, if_neg ht, if_neg hi]⟩

lemma expandFrom_append {t : Bytes} (ht : 37 ∉ t) (rest : Bytes) (room : UInt64) :
    expandFrom caller called callid (t ++ rest) room =
      t ++ expandFrom caller called callid rest (room - UInt64.ofNat t.length) := by
  induction t generalizing room with
  | nil => simp
  | cons c t ih =>
    have hc : c ≠ 37 := fun h => ht (h ▸ List.mem_cons_self)
    have hrest : 37 ∉ t := fun h => ht (List.mem_cons_of_mem c h)
    have hroom : room - 1 - UInt64.ofNat t.length = room - UInt64.ofNat (c :: t).length := by
      rw [List.length_cons, UInt64.ofNat_add]
      grind
    rw [List.cons_append, expandFrom_char hc, ih hrest, hroom, List.cons_append]

/-- The codes of the time are left to `strftime`. -/
lemma expandFrom_tokens {toks : List DateToken} (htoks : ∀ tok ∈ toks, tok.Valid) (rest : Bytes)
    (room : UInt64) :
    expandFrom caller called callid (toks.flatMap DateToken.format ++ rest) room =
      toks.flatMap DateToken.format ++ expandFrom caller called callid rest
        (room - UInt64.ofNat (toks.flatMap DateToken.format).length) := by
  induction toks generalizing room with
  | nil => simp
  | cons tok toks ih =>
    obtain ⟨htok, htoks⟩ := List.forall_mem_cons.mp htoks
    have hroom : ∀ n : ℕ, room - UInt64.ofNat n -
        UInt64.ofNat (toks.flatMap DateToken.format).length =
        room - UInt64.ofNat (n + (toks.flatMap DateToken.format).length) := by
      intro n
      rw [UInt64.ofNat_add]
      grind
    rw [List.flatMap_cons, List.length_append, ← hroom, List.append_assoc, List.append_assoc,
      ← ih htoks]
    cases tok with
    | char c => exact expandFrom_char htok _ room
    | code c =>
      obtain ⟨hpercent, hnone⟩ := templateString_dateCodes c htok
      have htwo : room - 1 - 1 = room - UInt64.ofNat 2 := by grind
      show expandFrom caller called callid (37 :: c :: _) room = 37 :: c :: _
      rw [expandFrom_percent hnone, expandFrom_char hpercent, htwo]
      rfl

/-- The strings that find room in the expansion of the default name: the caller always does, the
callee and the Call-ID do if there is room for them in the 256 bytes.  A code that is left over is
left to `strftime`. -/
def nameText (caller called callid : Bytes) : Bytes :=
  let calledText :=
    if caller.length + called.length < 268 then sanitize called else ascii "%t"
  let idText :=
    if caller.length + calledText.length + callid.length < 267 then sanitize callid
    else ascii "%i"
  sanitize caller ++ 45 :: calledText ++ 45 :: idText ++ ascii ".pcap"

/-- A text without codes is copied. -/
lemma expandFrom_self {t : Bytes} (ht : 37 ∉ t) (room : UInt64) :
    expandFrom caller called callid t room = t := by
  have happend : expandFrom caller called callid (t ++ []) room =
      t ++ expandFrom caller called callid [] _ := expandFrom_append ht [] room
  rwa [List.append_nil, expandFrom, List.append_nil] at happend

/-- Which strings find room, in numbers that do not wrap. -/
lemma ofNat_lt_ofNat_iff {m n : ℕ} (hm : m ≤ 512) (hn : n ≤ 512) :
    UInt64.ofNat n < UInt64.ofNat m ↔ n < m :=
  UInt64.ofNat_lt_iff_lt (hn.trans_lt (by decide)) (hm.trans_lt (by decide))

/-- The end of the default name, with room for `k` bytes. -/
lemma expandFrom_idFormat (hcallid : callid.length ≤ 512) {k : ℕ} (hk : k ≤ 512) :
    expandFrom caller called callid (37 :: 105 :: ascii ".pcap") (UInt64.ofNat k) =
      (if callid.length < k then sanitize callid else ascii "%i") ++ ascii ".pcap" := by
  have hi : templateString caller called callid 105 = some callid := rfl
  have hend : (37 : UInt8) ∉ ascii ".pcap" := by decide
  rw [expandFrom_code hi, expandFrom_char (by decide), expandFrom_self hend, expandFrom_self hend]
  by_cases hroom : callid.length < k
  · rw [if_pos ((ofNat_lt_ofNat_iff hk hcallid).mpr hroom), if_pos hroom]
  · rw [if_neg ((ofNat_lt_ofNat_iff hk hcallid).not.mpr hroom), if_neg hroom]
    rfl

lemma expandFrom_nameFormat (hcaller : caller.length ≤ 256) (hcalled : called.length ≤ 256)
    (hcallid : callid.length ≤ 512) :
    expandFrom caller called callid nameFormat 269 = nameText caller called callid := by
  have hsub : ∀ {m n : ℕ}, n ≤ m → UInt64.ofNat m - UInt64.ofNat n = UInt64.ofNat (m - n) :=
    fun h => (UInt64.ofNat_sub h).symm
  have hone : ∀ {m : ℕ}, 1 ≤ m → UInt64.ofNat m - 1 = UInt64.ofNat (m - 1) := fun h => hsub h
  -- the Call-ID, behind the caller, `n` bytes for the callee, and two hyphens
  have hid : ∀ n, caller.length + n ≤ 267 →
      expandFrom caller called callid (37 :: 105 :: ascii ".pcap")
        (UInt64.ofNat (267 - caller.length - n)) =
      (if caller.length + n + callid.length < 267 then sanitize callid else ascii "%i") ++
        ascii ".pcap" := by
    intro n hn
    have hlt : callid.length < 267 - caller.length - n ↔
        caller.length + n + callid.length < 267 := by omega
    simp only [expandFrom_idFormat hcallid (show 267 - caller.length - n ≤ 512 by omega), hlt]
  have hf : templateString caller called callid 102 = some caller := rfl
  have ht : templateString caller called callid 116 = some called := rfl
  have hlt : UInt64.ofNat called.length < UInt64.ofNat (269 - caller.length - 1) ↔
      caller.length + called.length < 268 := by
    rw [ofNat_lt_ofNat_iff (by omega) (by omega)]
    omega
  show expandFrom caller called callid (37 :: 102 :: 45 :: 37 :: 116 :: 45 :: 37 :: 105 ::
    ascii ".pcap") (UInt64.ofNat 269) = _
  rw [expandFrom_code hf, if_pos ((ofNat_lt_ofNat_iff (by omega) (by omega)).mpr (by omega)),
    expandFrom_char (by decide), expandFrom_code ht, hsub (by omega), hone (by omega), nameText]
  by_cases hroom : caller.length + called.length < 268
  · have hlen := hid called.length (by omega)
    rw [if_pos (hlt.mpr hroom), if_pos hroom, expandFrom_char (by decide), hsub (by omega),
      hone (by omega), length_sanitize,
      show 269 - caller.length - 1 - called.length - 1 = 267 - caller.length - called.length by
        omega, hlen]
    simp
  · have hlen := hid 2 (by omega)
    have htwo : (ascii "%t").length = 2 := rfl
    rw [if_neg (hlt.not.mpr hroom), if_neg hroom, expandFrom_char (by decide),
      expandFrom_char (by decide), hone (by omega), hone (by omega), hone (by omega), htwo,
      show 269 - caller.length - 1 - 1 - 1 - 1 = 267 - caller.length - 2 by omega, hlen]
    simp [ascii]

end Expansion

/-! ### The local time -/

/-- What is documented of the local time as `strftime` prints it: the six codes are replaced by
numbers, those other than the year with two digits. -/
structure LocalTime where
  conversion : ℤ → Conversion
  /-- What is printed for a code. -/
  field : ℤ → UInt8 → Bytes
  spec_eq : ∀ t, ∀ c ∈ dateCodes, ∀ s, (conversion t).spec (c :: s) = (1, field t c)
  no_slash : ∀ t, ∀ c ∈ dateCodes, 47 ∉ field t c
  two_digits : ∀ t, ∀ c ∈ dateCodes, c ≠ 89 → (field t c).length = 2

namespace LocalTime

variable (time : LocalTime)

/-- The date and the time of day, as they are printed. -/
def stamp (t : ℤ) : List Bytes := dateCodes.map (time.field t)

/-- What is printed for a token. -/
def text (t : ℤ) : DateToken → Bytes
  | .char c => [c]
  | .code c => time.field t c

lemma strftime_tokens (t : ℤ) {toks : List DateToken} (htoks : ∀ tok ∈ toks, tok.Valid)
    (rest : Bytes) :
    strftime (time.conversion t) (toks.flatMap DateToken.format ++ rest) =
      toks.flatMap (time.text t) ++ strftime (time.conversion t) rest := by
  induction toks with
  | nil => rfl
  | cons tok toks ih =>
    obtain ⟨htok, htoks⟩ := List.forall_mem_cons.mp htoks
    rw [List.flatMap_cons, List.flatMap_cons, List.append_assoc, List.append_assoc, ← ih htoks]
    cases tok with
    | char c => exact strftime_cons htok _
    | code c => exact strftime_code (time.spec_eq t c htok _)

/-- The path determines the date and the time that are in it, and what follows. -/
lemma tokens_append_inj {t t' : ℤ} {rest rest' : Bytes} :
    dateTokens.flatMap (time.text t) ++ rest = dateTokens.flatMap (time.text t') ++ rest' ↔
      time.stamp t = time.stamp t' ∧ rest = rest' := by
  have htwo : ∀ c ∈ dateCodes, c ≠ 89 → (time.field t c).length = (time.field t' c).length := by
    intro c hc hyear
    rw [time.two_digits t c hc hyear, time.two_digits t' c hc hyear]
  have hdate : ∀ t, 47 ∉ time.field t 89 ++ (time.field t 109 ++ time.field t 100) := by
    intro t
    have hslash := time.no_slash t
    simp only [List.mem_append, not_or]
    exact ⟨hslash 89 (by decide), hslash 109 (by decide), hslash 100 (by decide)⟩
  have hpath : ∀ t rest, dateTokens.flatMap (time.text t) ++ rest =
      47 :: ((time.field t 89 ++ (time.field t 109 ++ time.field t 100)) ++
        47 :: (time.field t 72 ++ 47 :: (time.field t 89 ++ (time.field t 109 ++
          (time.field t 100 ++ 45 :: (time.field t 72 ++ (time.field t 77 ++
            (time.field t 83 ++ 45 :: rest)))))))) := by
    intro t rest
    simp [dateTokens, text]
  have hstamp : ∀ t, time.stamp t = [time.field t 89, time.field t 109, time.field t 100,
      time.field t 72, time.field t 77, time.field t 83] := fun t => rfl
  rw [hpath, hpath, hstamp, hstamp]
  constructor
  · intro h
    -- the directory of the day ends at the first slash
    obtain ⟨hday, h⟩ := append_cons_inj (hdate t) (hdate t') (List.cons.inj h).2
    obtain ⟨hY, hday⟩ := List.append_inj' hday (by
      rw [List.length_append, List.length_append, htwo 109 (by decide) (by decide),
        htwo 100 (by decide) (by decide)])
    obtain ⟨hm, hd⟩ := List.append_inj' hday (htwo 100 (by decide) (by decide))
    obtain ⟨hH, h⟩ := List.append_inj h (htwo 72 (by decide) (by decide))
    rw [hY, hm, hd, hH] at h
    simp only [List.cons.injEq, List.append_cancel_left_eq, true_and] at h
    obtain ⟨hM, h⟩ := List.append_inj h (htwo 77 (by decide) (by decide))
    obtain ⟨hS, h⟩ := List.append_inj h (htwo 83 (by decide) (by decide))
    rw [hY, hm, hd, hH, hM, hS]
    exact ⟨rfl, (List.cons.inj h).2⟩
  · rintro ⟨h, rfl⟩
    simp only [List.cons.injEq, and_true] at h
    obtain ⟨hY, hm, hd, hH, hM, hS⟩ := h
    rw [hY, hm, hd, hH, hM, hS]

end LocalTime

/-! ### The path of a call -/

/-- What the message contributes to the default name. -/
def SipMessage.nameText (msg : SipMessage) : Bytes :=
  PcapSipDump.nameText (cstr msg.caller.toBytes) (cstr msg.called.toBytes) msg.callidStr

/-- The host prints the local time. -/
def PrintsTime (host : Host) (time : LocalTime) : Prop :=
  ∀ format t, host.strftime format t = strftime (time.conversion t) format

lemma length_cstr_toBytes_le {n : ℕ} (b : Buf n) : (cstr b.toBytes).length ≤ n := by
  have hle : (cstr b.toBytes).length ≤ b.toBytes.length := (List.takeWhile_prefix _).length_le
  rwa [Buf.length_toBytes] at hle

variable {time : LocalTime}

/-- With the default name the path is the directory, the time, and what the message contributes. -/
lemma fileName_eq (hhost : PrintsTime host time) {dir : Bytes} (hpercent : 37 ∉ dir)
    (hnul : 0 ∉ dir) (htemplate : o.optFntemplate = dir ++ (dateFormat ++ nameFormat))
    (msg : SipMessage) (t : ℤ) :
    fileName o host msg t = dir ++ (dateTokens.flatMap (time.text t) ++
      strftime (time.conversion t) msg.nameText) := by
  have hroom : UInt64.ofNat ((dir ++ (dateFormat ++ nameFormat)).length + 256) -
      UInt64.ofNat dir.length - UInt64.ofNat dateFormat.length = 269 := by
    have hname : nameFormat.length = 13 := by decide +kernel
    rw [List.length_append, List.length_append, hname, UInt64.ofNat_add, UInt64.ofNat_add,
      UInt64.ofNat_add]
    have h269 : (269 : UInt64) = UInt64.ofNat 13 + UInt64.ofNat 256 := by decide
    grind
  have hnulFree : ∀ c ∈ o.optFntemplate, c ≠ 0 := by
    rw [htemplate]
    simp only [List.forall_mem_append]
    exact ⟨fun c hc h => hnul (h ▸ hc), by decide +kernel, by decide +kernel⟩
  have hname : expandFrom (cstr msg.caller.toBytes) (cstr msg.called.toBytes) msg.callidStr
      nameFormat 269 = msg.nameText :=
    expandFrom_nameFormat (length_cstr_toBytes_le _) (length_cstr_toBytes_le _)
      (length_cstr_toBytes_le _)
  rw [fileName, hhost, expandDirTemplate,
    cstr_eq_self (strftime_nul_free (expandFrom_nul_free hnulFree _)), htemplate,
    expandFrom_append hpercent, dateFormat, expandFrom_tokens valid_of_mem_dateTokens,
    ← dateFormat, hroom, hname, strftime_append hpercent, dateFormat,
    time.strftime_tokens t valid_of_mem_dateTokens]

/-- **When two messages have the same path.**  The date and the time of day agree, and so does what
the messages contribute. -/
lemma fileName_eq_iff (hhost : PrintsTime host time) (htemplate : HasDefaultName o.optFntemplate)
    (msg msg' : SipMessage) (t t' : ℤ) :
    fileName o host msg t = fileName o host msg' t' ↔ time.stamp t = time.stamp t' ∧
      strftime (time.conversion t) msg.nameText = strftime (time.conversion t') msg'.nameText := by
  obtain ⟨dir, hpercent, hnul, heq⟩ := htemplate
  rw [fileName_eq hhost hpercent hnul heq, fileName_eq hhost hpercent hnul heq,
    List.append_right_inj, time.tokens_append_inj]

/-! ### The files of a run -/

/-- The input is a packet captured at `t`, whose message creates the entry of its call, and `f` is
the file that is opened for the call. -/
def Opens (o : Options) (host : Host) (msg : SipMessage) (t : ℤ) (f : Handle) (s : State) :
    Input → Prop
  | .packet p => p.ts = t ∧ ∃ i, Creates o host i msg s (.packet p) ∧
      (((loop o host).next s (.packet p)).world.slot i).fPcap = some f
  | .cleanup _ => False

/-- A message that creates an entry opens the file that the entry has then, if it has one. -/
lemma opened_sip_iff (hw : s.world.ct.TableInv) {ip : ℕ} {msg : SipMessage}
    (hb : branch o p s.world = .sip ip msg) {callId fn : Bytes} {f : Handle} :
    .dumpOpen callId fn (some f) ∈ (dispatch o host p s).world.openings ↔
      (msg.callId = some callId ∧ s.world.ct.findByCallId callId = none ∧
        fn = fileName o host msg p.ts ∧ ∃ i, (findOrAdd o host msg p.ts s).1 = some i ∧
          ((dispatch o host p s).world.slot i).fPcap = some f) ∨
        .dumpOpen callId fn (some f) ∈ s.world.openings := by
  rw [openings_dispatch_sip host hb]
  rcases findOrAdd_cases o host msg p.ts s with he | ⟨callId', hid, ⟨k, hk, he⟩ | ⟨hnew, he⟩⟩
  · rw [he, or_iff_right]
    rintro ⟨-, -, -, i, hi, -⟩
    cases hi
  · rw [he, or_iff_right]
    rintro ⟨hid', hnew, -⟩
    obtain rfl : callId' = callId := Option.some.inj (hid.symm.trans hid')
    rw [hk] at hnew
    cases hnew
  · obtain ⟨opened, hfile, hopened⟩ := dumpOpen_added hw.unusedZero he
    have hadded : (findOrAdd o host msg p.ts s).1 = some s.world.ct.addIdx := by rw [he]
    have hkept : ((dispatch o host p s).world.slot s.world.ct.addIdx).fPcap = opened.join :=
      (sameCall_dispatch hw hb (Prod.ext hadded rfl) _).fPcap.trans hfile
    rw [World.mem_openings, World.mem_openings, hopened, or_comm]
    refine or_congr_left ?_
    constructor
    · rintro ⟨rfl, hfn, hf⟩
      refine ⟨hid, hnew, hfn, _, hadded, ?_⟩
      rw [hkept, hf]
      rfl
    · rintro ⟨hid', -, hfn, i, hi, hf⟩
      obtain rfl : s.world.ct.addIdx = i := Option.some.inj (hadded.symm.trans hi)
      rw [hkept] at hf
      exact ⟨Option.some.inj (hid'.symm.trans hid), hfn, Option.join_eq_some_iff.mp hf⟩

/-- **What an input opens.**  A file is opened for the call that a message creates, with the path of
the message, or was opened before. -/
lemma opened_next_iff {a : Input} (hw : (afterPass s a).world.ct.TableInv) {callId fn : Bytes}
    {f : Handle} : .dumpOpen callId fn (some f) ∈ ((loop o host).next s a).world.log ↔
      (∃ msg t, Opens o host msg t f s a ∧ msg.callId = some callId ∧
        fn = fileName o host msg t) ∨ .dumpOpen callId fn (some f) ∈ s.world.log := by
  rw [← World.mem_openings, ← World.mem_openings, ← openings_afterPass s a]
  cases a with
  | cleanup currtime =>
    have hno : ¬∃ msg t, Opens o host msg t f s (.cleanup currtime) ∧ msg.callId = some callId ∧
        fn = fileName o host msg t := by
      rintro ⟨_, _, h, -⟩
      exact h
    rw [or_iff_right hno]
    rfl
  | packet p =>
    obtain ⟨t, ht⟩ : ∃ t, t = afterPass s (.packet p) := ⟨_, rfl⟩
    have hnext : (loop o host).next s (.packet p) = dispatch o host p t := by
      rw [ht]
      rfl
    simp only [Opens, Creates, hnext, ← ht] at hw ⊢
    by_cases hsip : ∃ ip msg, branch o p t.world = .sip ip msg
    · obtain ⟨ip, msg, hb⟩ := hsip
      rw [opened_sip_iff hw hb]
      refine or_congr_left ?_
      constructor
      · rintro ⟨hid, hnew, hfn, i, hi, hf⟩
        exact ⟨msg, p.ts, ⟨rfl, i, ⟨ip, callId, hb, hid, hnew, hi⟩, hf⟩, hid, hfn⟩
      · rintro ⟨msg', _, ⟨rfl, i, ⟨ip', callId', hb', hid', hnew, hi⟩, hf⟩, hid, hfn⟩
        obtain ⟨rfl, rfl⟩ := Branch.sip.inj (hb.symm.trans hb')
        obtain rfl : callId' = callId := Option.some.inj (hid'.symm.trans hid)
        exact ⟨hid, hnew, hfn, i, hi, hf⟩
    · rw [openings_dispatch_other host hw fun ip msg hb => hsip ⟨ip, msg, hb⟩, or_iff_right]
      rintro ⟨msg, _, ⟨-, _, ⟨ip, _, hb, -⟩, -⟩, -⟩
      exact hsip ⟨ip, msg, hb⟩

/-- The files of a run are those that its inputs open. -/
lemma opened_run_iff (o : Options) (host : Host) (inputs : List Input) {callId fn : Bytes}
    {f : Handle} :
    .dumpOpen callId fn (some f) ∈ ((loop o host).run o.start inputs).world.log ↔
      ∃ msg t, (loop o host).Sometime (Opens o host msg t f) o.start inputs ∧
        msg.callId = some callId ∧ fn = fileName o host msg t := by
  have hrun := Machine.run_iff_sometime (M := loop o host)
    (P := fun s => .dumpOpen callId fn (some f) ∈ s.world.log) (I := fun s : State => Owns s.world)
    (fun s a _ howns => howns.loop a)
    (fun s a _ howns => opened_next_iff (howns.afterPass a).tableInv)
    (legal_loop o host o.start inputs) (owns_start o)
  have hstart : .dumpOpen callId fn (some f) ∉ o.start.world.log := List.not_mem_nil
  rw [hrun, or_iff_left hstart]
  constructor
  · rintro ⟨pre, a, post, heq, msg, t, hopens, hid, hfn⟩
    exact ⟨msg, t, ⟨pre, a, post, heq, hopens⟩, hid, hfn⟩
  · rintro ⟨msg, t, ⟨pre, a, post, heq, hopens⟩, hid, hfn⟩
    exact ⟨pre, a, post, heq, msg, t, hopens, hid, hfn⟩

lemma Opens.callId {msg : SipMessage} {t : ℤ} {f : Handle} {a : Input}
    (h : Opens o host msg t f s a) : ∃ callId, msg.callId = some callId := by
  cases a with
  | packet p =>
    obtain ⟨-, _, ⟨_, callId, -, hid, -⟩, -⟩ := h
    exact ⟨callId, hid⟩
  | cleanup currtime => exact h.elim

/-- **One file per call.**  With the default name, the files that a run opens for different Call-IDs
have different paths if and only if for every two such calls the local time differs in the date
or the time of day, or what their messages contribute to the name does. -/
theorem paths_differ_iff (o : Options) (host : Host) (time : LocalTime) (inputs : List Input)
    (hhost : PrintsTime host time) (htemplate : HasDefaultName o.optFntemplate) :
    let log := ((loop o host).run o.start inputs).world.log
    (∀ callId fn f callId' fn' f', .dumpOpen callId fn (some f) ∈ log →
        .dumpOpen callId' fn' (some f') ∈ log → callId ≠ callId' → fn ≠ fn') ↔
      ∀ msg t f msg' t' f', (loop o host).Sometime (Opens o host msg t f) o.start inputs →
        (loop o host).Sometime (Opens o host msg' t' f') o.start inputs →
        msg.callId ≠ msg'.callId → time.stamp t ≠ time.stamp t' ∨
          strftime (time.conversion t) msg.nameText ≠
            strftime (time.conversion t') msg'.nameText := by
  intro log
  have hne : ∀ msg t msg' t', fileName o host msg t ≠ fileName o host msg' t' ↔
      time.stamp t ≠ time.stamp t' ∨
        strftime (time.conversion t) msg.nameText ≠
          strftime (time.conversion t') msg'.nameText := by
    intro msg t msg' t'
    rw [Ne, fileName_eq_iff hhost htemplate, not_and_or]
  constructor
  · intro h msg t f msg' t' f' hopens hopens' hcalls
    obtain ⟨callId, hid⟩ : ∃ callId, msg.callId = some callId := by
      obtain ⟨_, _, _, -, hstep⟩ := hopens
      exact hstep.callId
    obtain ⟨callId', hid'⟩ : ∃ callId, msg'.callId = some callId := by
      obtain ⟨_, _, _, -, hstep⟩ := hopens'
      exact hstep.callId
    rw [hid, hid'] at hcalls
    exact (hne msg t msg' t').mp (h callId _ f callId' _ f'
      ((opened_run_iff o host inputs).mpr ⟨msg, t, hopens, hid, rfl⟩)
      ((opened_run_iff o host inputs).mpr ⟨msg', t', hopens', hid', rfl⟩)
      fun heq => hcalls (congrArg some heq))
  · intro h callId fn f callId' fn' f' hmem hmem' hcalls
    obtain ⟨msg, t, hopens, hid, rfl⟩ := (opened_run_iff o host inputs).mp hmem
    obtain ⟨msg', t', hopens', hid', rfl⟩ := (opened_run_iff o host inputs).mp hmem'
    refine (hne msg t msg' t').mpr (h msg t f msg' t' f' hopens hopens' ?_)
    rw [hid, hid']
    exact fun heq => hcalls (Option.some.inj heq)

/-! ### One second of 1970 -/

/-- The decimal digits of a number below 100. -/
def twoDigits (n : ℕ) : Bytes := [UInt8.ofNat (48 + n / 10 % 10), UInt8.ofNat (48 + n % 10)]

lemma digit_of_mem_twoDigits {n : ℕ} {c : UInt8} (h : c ∈ twoDigits n) : c ≠ 47 ∧ c ≠ 0 := by
  have hdigit : ∀ k : Fin 10, UInt8.ofNat (48 + k) ≠ 47 ∧ UInt8.ofNat (48 + k) ≠ 0 := by decide
  simp only [twoDigits, List.mem_cons, List.not_mem_nil, or_false] at h
  rcases h with rfl | rfl
  · exact hdigit ⟨n / 10 % 10, Nat.mod_lt _ (by decide)⟩
  · exact hdigit ⟨n % 10, Nat.mod_lt _ (by decide)⟩

/-- What is printed for a code on the first day of 1970, in UTC. -/
def epochField (t : ℤ) (c : UInt8) : Bytes :=
  if c = 89 then ascii "1970"
  else if c = 72 then twoDigits (t.toNat / 3600)
  else if c = 77 then twoDigits (t.toNat / 60 % 60)
  else if c = 83 then twoDigits (t.toNat % 60)
  else ascii "01"

lemma ne_of_mem_epochField {t : ℤ} {c d : UInt8} (h : d ∈ epochField t c) : d ≠ 47 ∧ d ≠ 0 := by
  have hyear : ∀ d ∈ ascii "1970", d ≠ 47 ∧ d ≠ 0 := by decide +kernel
  have hday : ∀ d ∈ ascii "01", d ≠ 47 ∧ d ≠ 0 := by decide +kernel
  unfold epochField at h
  split_ifs at h
  · exact hyear d h
  · exact digit_of_mem_twoDigits h
  · exact digit_of_mem_twoDigits h
  · exact digit_of_mem_twoDigits h
  · exact hday d h

/-- The specifications on this day.  `%t` is a tab, and a `%` before anything else is copied. -/
def epochSpec (t : ℤ) : Bytes → ℕ × Bytes
  | [] => (0, [37])
  | c :: _ =>
      if c ∈ dateCodes then (1, epochField t c) else if c = 116 then (1, [9]) else (0, [37])

lemma epochSpec_nul_free (t : ℤ) (s : Bytes) : ∀ c ∈ (epochSpec t s).2, c ≠ 0 := by
  cases s with
  | nil => simp [epochSpec]
  | cons c s =>
    rw [epochSpec]
    split_ifs
    · exact fun d hd => (ne_of_mem_epochField hd).2
    · simp
    · simp

/-- The first day of 1970 in UTC. -/
def LocalTime.epoch : LocalTime where
  conversion t := ⟨epochSpec t, epochSpec_nul_free t⟩
  field := epochField
  spec_eq t c hc s := if_pos hc
  no_slash t c _ h := (ne_of_mem_epochField h).1 rfl
  two_digits t c _ hyear := by
    unfold epochField
    rw [if_neg hyear]
    split_ifs <;> rfl

/-- The host with this local time. -/
def Host.epoch : Host where
  dumpOpen := Host.numbering.dumpOpen
  strftime format t := PcapSipDump.strftime (LocalTime.epoch.conversion t) format
  dumpOpen_fresh := Host.numbering.dumpOpen_fresh

/-- The settings of root, with raw IP packets. -/
def Options.spool : Options := { Options.raw with optFntemplate := defaultFntemplate none }

/-- The calls `a` and `b` of one second get two files, so their messages contribute different
names. -/
theorem paths_differ_twoCalls :
    let inputs : List Input := [.packet (.captured 1000 (invite "a")),
      .packet (.captured 1000 (invite "b"))]
    let run := (loop Options.spool Host.epoch).Sometime
    ∀ msg t f msg' t' f', run (Opens Options.spool Host.epoch msg t f) Options.spool.start inputs →
      run (Opens Options.spool Host.epoch msg' t' f') Options.spool.start inputs →
      msg.callId ≠ msg'.callId → LocalTime.epoch.stamp t ≠ LocalTime.epoch.stamp t' ∨
        strftime (LocalTime.epoch.conversion t) msg.nameText ≠
          strftime (LocalTime.epoch.conversion t') msg'.nameText := by
  intro inputs run
  have hdefault : HasDefaultName (defaultFntemplate none) := hasDefaultName_default (by simp)
  refine (paths_differ_iff Options.spool Host.epoch LocalTime.epoch inputs (fun _ _ => rfl)
    hdefault).mp ?_
  obtain ⟨w, hw⟩ :
      ∃ w, w = ((loop Options.spool Host.epoch).run Options.spool.start inputs).world := ⟨_, rfl⟩
  have hopenings : w.openings =
      [.trigger .open [] (ascii "a") (ascii "b") (ascii "a") 1000,
        .dumpOpen (ascii "a")
          (ascii "/var/spool/pcapsipdump/19700101/00/19700101-001640-a-b-a.pcap") (some 1),
        .trigger .open [] (ascii "a") (ascii "b") (ascii "b") 1000,
        .dumpOpen (ascii "b")
          (ascii "/var/spool/pcapsipdump/19700101/00/19700101-001640-a-b-b.pcap") (some 2)] := by
    rw [hw]
    decide +kernel
  rw [← hw]
  intro callId fn f callId' fn' f' hmem hmem' hcalls
  rw [← World.mem_openings, hopenings] at hmem hmem'
  simp only [List.mem_cons, List.not_mem_nil, reduceCtorEq, IoEvent.dumpOpen.injEq, false_or,
    or_false] at hmem hmem'
  rcases hmem with ⟨rfl, rfl, -⟩ | ⟨rfl, rfl, -⟩ <;>
    rcases hmem' with ⟨rfl, rfl, -⟩ | ⟨rfl, rfl, -⟩
  · exact absurd rfl hcalls
  · decide +kernel
  · decide +kernel
  · exact absurd rfl hcalls

/-- The slash and the question mark of two Call-IDs both become `_`: the calls `a/b` and `a?b` of
one second get the same path. -/
theorem paths_differ_false :
    let log := ((loop Options.spool Host.epoch).run Options.spool.start
      [.packet (.captured 1000 (invite "a/b")), .packet (.captured 1000 (invite "a?b"))]).world.log
    let fn := ascii "/var/spool/pcapsipdump/19700101/00/19700101-001640-a-b-a_b.pcap"
    Options.spool.optFntemplate = defaultFntemplate none ∧ ascii "a/b" ≠ ascii "a?b" ∧
      .dumpOpen (ascii "a/b") fn (some 1) ∈ log ∧ .dumpOpen (ascii "a?b") fn (some 2) ∈ log := by
  decide +kernel

end PcapSipDump
