import PcapSipDump.Capture.SipFields

/-!
# The user part of an address

`get_sip_peername` looks for the scheme of an address and for the `@` behind its user part, each in
the whole value of the header.  So an `@` in the display name hides the user part, and a `sip:`
behind a `tel:` takes its place (`sip_peername_iff`).
-/

namespace PcapSipDump

open Lib.CString

/-! ### Values with an address -/

/-- The schemes that `get_sip_peername` knows. -/
inductive UriScheme where
  | sip
  | tel
deriving DecidableEq

/-- The text of a scheme. -/
def UriScheme.text : UriScheme → Bytes
  | .sip => ascii "sip:"
  | .tel => ascii "tel:"

/-- The first letter of a scheme. -/
def UriScheme.head : UriScheme → UInt8
  | .sip => 115
  | .tel => 116

/-- The rest of a scheme. -/
def UriScheme.tail : UriScheme → Bytes
  | .sip => ascii "ip:"
  | .tel => ascii "el:"

lemma UriScheme.text_eq (u : UriScheme) : u.text = u.head :: u.tail := by
  cases u <;> rfl

lemma UriScheme.head_not_mem_tail (u u' : UriScheme) : u.head ∉ u'.tail := by
  cases u <;> cases u' <;> decide

/-- The value of a header with an address: what stands before the scheme, which is the display name
and `<`, the user part, and what stands behind the `@`. -/
structure UriValue where
  before : Bytes
  scheme : UriScheme
  user : Bytes
  after : Bytes
  before_plain : ∀ scheme : UriScheme, ¬scheme.text <:+: before
  user_ne_nil : user ≠ []
  user_plain : 64 ∉ user ∧ 62 ∉ user

namespace UriValue

variable (v : UriValue)

/-- The text of the value. -/
def text : Bytes := v.before ++ (v.scheme.text ++ (v.user ++ 64 :: v.after))

/-- Nothing but the scheme and the `@` of the address is taken for them: the display name has no
`@`, and no `sip:` follows a `tel:`. -/
def Plain : Prop :=
  64 ∉ v.before ∧ (v.scheme = .tel → ¬ascii "sip:" <:+: v.user ++ 64 :: v.after)

end UriValue

namespace UriValue

variable {v : UriValue}

/-- No scheme starts in front of the scheme of the address. -/
lemma length_before_le {u : UriScheme} {i : ℕ} (h : u.text <+: v.text.drop i) :
    v.before.length ≤ i := by
  by_contra hlt
  refine v.before_plain u ?_
  rw [text, v.scheme.text_eq, u.text_eq, List.cons_append] at h
  rw [u.text_eq]
  exact infix_of_occurrence (v.scheme.head_not_mem_tail u) (not_le.mp hlt) h

lemma isLeast_scheme (v : UriValue) :
    IsLeast {i | v.scheme.text <+: v.text.drop i} v.before.length := by
  refine ⟨?_, fun i hi => length_before_le hi⟩
  show v.scheme.text <+: v.text.drop v.before.length
  rw [text, List.drop_left]
  exact List.prefix_append _ _

lemma length_scheme (v : UriValue) : v.scheme.text.length = 4 := by
  cases v.scheme <;> rfl

/-- Behind a `tel:` the text `sip:` can only be in the user part and what follows. -/
lemma sip_behind_tel (htel : v.scheme = .tel) {i : ℕ} (h : ascii "sip:" <+: v.text.drop i) :
    ∃ k, i = v.before.length + 4 + k ∧ ascii "sip:" <+: (v.user ++ 64 :: v.after).drop k := by
  have hle : v.before.length ≤ i := length_before_le (u := .sip) h
  obtain ⟨m, rfl⟩ := Nat.exists_eq_add_of_le hle
  rw [text, List.drop_length_add_append, htel] at h
  by_cases hm : 4 ≤ m
  · obtain ⟨k, rfl⟩ := Nat.exists_eq_add_of_le hm
    have hlen : UriScheme.tel.text.length = 4 := rfl
    rw [← hlen, List.drop_length_add_append] at h
    exact ⟨k, by omega, h⟩
  · -- no letter of `tel:` is an `s`
    have hfour : m = 0 ∨ m = 1 ∨ m = 2 ∨ m = 3 := by omega
    obtain ⟨t, ht⟩ : ∃ t, t = v.user ++ 64 :: v.after := ⟨_, rfl⟩
    rw [← ht] at h
    have hs : ascii "sip:" = 115 :: ascii "ip:" := rfl
    have htext : UriScheme.tel.text ++ t = 116 :: 101 :: 108 :: 58 :: t := rfl
    rw [hs, htext] at h
    rcases hfour with rfl | rfl | rfl | rfl <;>
      exact absurd (List.cons_prefix_cons.mp h).1 (by decide)

lemma isLeast_at (h : 64 ∉ v.before) :
    IsLeast {i | ascii "@" <+: v.text.drop i} (v.before.length + 4 + v.user.length) := by
  have hat : ascii "@" = [64] := rfl
  have hscheme : 64 ∉ v.scheme.text := by
    cases v.scheme <;> decide
  have htext : v.text = (v.before ++ v.scheme.text ++ v.user) ++ ([64] ++ v.after) := by
    simp [text]
  have hlength : v.before.length + 4 + v.user.length =
      (v.before ++ v.scheme.text ++ v.user).length := by
    rw [List.length_append, List.length_append, v.length_scheme]
  rw [hat, htext, hlength]
  refine isLeast_occurrence List.not_mem_nil (fun hin => ?_) v.after
  have hmem := hin.subset (List.mem_singleton_self 64)
  simp only [List.mem_append] at hmem
  rcases hmem with (hmem | hmem) | hmem
  · exact h hmem
  · exact hscheme hmem
  · exact v.user_plain.1 hmem

/-- The user part that is read. -/
lemma peername_text (h : v.Plain) : peername v.text = some v.user := by
  have hend : FirstOf v.text (ascii "@") (ascii ">") (v.before.length + 4 + v.user.length) :=
    Or.inl (isLeast_at h.1)
  have hstart : FirstOf v.text (ascii "sip:") (ascii "tel:") v.before.length := by
    rcases hs : v.scheme with _ | _
    · have hfirst := v.isLeast_scheme
      rw [hs] at hfirst
      exact Or.inl hfirst
    · have hfirst := v.isLeast_scheme
      rw [hs] at hfirst
      refine Or.inr ⟨fun j hj => ?_, hfirst⟩
      obtain ⟨k, -, hk⟩ := sip_behind_tel hs hj
      exact h.2 hs (hk.isInfix.trans (List.drop_suffix k _).isInfix)
  have hpos : 0 < v.user.length := List.length_pos_iff.mpr v.user_ne_nil
  refine peername_eq_some_iff.mpr ⟨v.before.length + 4, v.before.length + 4 + v.user.length,
    ⟨⟨_, hstart, rfl⟩, hend, by omega⟩, ?_⟩
  have htext : v.text = (v.before ++ v.scheme.text) ++ (v.user ++ 64 :: v.after) := by
    simp [text]
  have hlength : v.before.length + 4 = (v.before ++ v.scheme.text).length := by
    rw [List.length_append, v.length_scheme]
  rw [slice, hlength, htext, List.drop_left]
  simp

/-- What is read instead is shorter. -/
lemma length_lt_of_peername (h : ¬v.Plain) {name : Bytes} (hname : peername v.text = some name) :
    name.length < v.user.length := by
  obtain ⟨i, j, hij, rfl⟩ := peername_eq_some_iff.mp hname
  rw [length_userPart hij]
  obtain ⟨⟨r, hr, rfl⟩, hj, hlt⟩ := hij
  have hle : v.before.length ≤ r := by
    rcases hr with hr | ⟨-, hr⟩
    · exact length_before_le (u := .sip) hr.1
    · exact length_before_le (u := .tel) hr.1
  by_cases hat : 64 ∈ v.before
  · -- the `@` of the display name is in front of the scheme
    obtain ⟨x, y, hxy⟩ := List.append_of_mem hat
    have hx : ascii "@" <+: v.text.drop x.length := by
      have htext : v.text = x ++ (64 :: (y ++ (v.scheme.text ++ (v.user ++ 64 :: v.after)))) := by
        simp [text, hxy]
      rw [htext, List.drop_left]
      exact List.cons_prefix_cons.mpr ⟨rfl, List.nil_prefix⟩
    have hlength : x.length < v.before.length := by
      rw [hxy, List.length_append, List.length_cons]
      omega
    rcases hj with hj | ⟨hno, -⟩
    · have hjx := hj.2 hx
      omega
    · exact absurd hx (hno _)
  · have hsip : v.scheme = .tel ∧ ascii "sip:" <:+: v.user ++ 64 :: v.after := by
      by_contra hno
      exact h ⟨hat, fun htel hin => hno ⟨htel, hin⟩⟩
    obtain ⟨htel, x, y, hxy⟩ := hsip
    have hoccurs : ascii "sip:" <+: v.text.drop (v.before.length + 4 + x.length) := by
      have htext : v.text = (v.before ++ v.scheme.text ++ x) ++ (ascii "sip:" ++ y) := by
        simp only [text, ← hxy, List.append_assoc]
      have hlength : v.before.length + 4 + x.length = (v.before ++ v.scheme.text ++ x).length := by
        rw [List.length_append, List.length_append, v.length_scheme]
      rw [hlength, htext, List.drop_left]
      exact List.prefix_append _ _
    have hpos : 0 < v.user.length := List.length_pos_iff.mpr v.user_ne_nil
    have hfirst := isLeast_at hat
    obtain rfl : j = v.before.length + 4 + v.user.length := by
      rcases hj with hj | ⟨hno, -⟩
      · exact hj.unique hfirst
      · exact absurd hfirst.1 (hno _)
    rcases hr with hr | ⟨hno, -⟩
    · obtain ⟨k, hk, -⟩ := sip_behind_tel htel hr.1
      omega
    · exact absurd hoccurs (hno _)

end UriValue

/-! ### What is stored -/

/-- `get_sip_peername` returns 0 and stores exactly `name`, with a terminator, whatever has been in
the buffer. -/
def StoresName (n : ℕ) (data : Bytes) (dataLen : ℕ) (tag name : Bytes) : Prop :=
  ∀ buf : Buf n, (getSipPeername data dataLen tag buf).1 = true ∧
    (getSipPeername data dataLen tag buf).2.toBytes.take (name.length + 1) = name ++ [0]

/-- `get_sip_peername` returns 1 and stores `empty`. -/
def StoresEmpty (n : ℕ) (data : Bytes) (dataLen : ℕ) (tag : Bytes) : Prop :=
  ∀ buf : Buf n, (getSipPeername data dataLen tag buf).1 = false ∧
    (getSipPeername data dataLen tag buf).2.toBytes.take 6 = ascii "empty" ++ [0]

section Store

variable {n dataLen : ℕ} {data tag value name : Bytes}

lemma getSipPeername_of_some {buf : Buf n}
    (hvalue : (gettag data (intLen dataLen) tag).map (slice data) = some value)
    (hname : peername value = some name) :
    getSipPeername data dataLen tag buf = (true, copyTerminated buf name) := by
  rw [getSipPeername_of_value hvalue, Option.getD_some, hname, Option.elim_some]

lemma getSipPeername_of_none {buf : Buf n}
    (hvalue : (gettag data (intLen dataLen) tag).map (slice data) = some value)
    (hnone : peername value = none) :
    getSipPeername data dataLen tag buf = (false, copyTerminated buf (ascii "empty")) := by
  rw [getSipPeername_of_value hvalue, Option.getD_some, hnone, Option.elim_none]

/-- A shorter name leaves the end of the buffer as it was. -/
lemma not_storesName {user : Bytes}
    (hvalue : (gettag data (intLen dataLen) tag).map (slice data) = some value)
    (hname : peername value = some name) (hlt : name.length < user.length)
    (hroom : user.length < n) : ¬StoresName n data dataLen tag user := by
  intro h
  obtain ⟨-, hstored⟩ := h fun _ => 1
  rw [getSipPeername_of_some hvalue hname] at hstored
  have hbyte := congrArg (fun l : Bytes => l[user.length]?) hstored
  simp only [List.getElem?_take_of_lt (Nat.lt_succ_self _), List.getElem?_concat_length] at hbyte
  have hkept : (copyTerminated (fun _ => 1) name : Buf n).toBytes[user.length]? = some 1 := by
    have hfar : ¬user.length < name.length + 1 := by omega
    simp [Buf.toBytes, copyTerminated, memcpy, hroom, hfar]
  rw [hkept] at hbyte
  exact absurd hbyte (by decide)

end Store

/-- **The user part of an address.**  The user part of a value with an address is stored, if it
fits, if and only if there is no `@` in front of the scheme and no `sip:` behind a `tel:`; and for a
value without the two schemes `empty` is stored. -/
theorem sip_peername_iff (n : ℕ) (data : Bytes) (dataLen : ℕ) (tag : Bytes) :
    (∀ v : UriValue, (gettag data (intLen dataLen) tag).map (slice data) = some v.text →
        v.user.length < n → (StoresName n data dataLen tag v.user ↔ v.Plain)) ∧
      (∀ value, (gettag data (intLen dataLen) tag).map (slice data) = some value →
        (∀ u : UriScheme, ¬u.text <:+: value) → 5 < n → StoresEmpty n data dataLen tag) := by
  refine ⟨fun v hvalue hroom => ⟨fun h => ?_, fun h buf => ?_⟩,
    fun value hvalue hno hroom buf => ?_⟩
  · by_contra hplain
    rcases hname : peername v.text with _ | name
    · have hfalse := (h fun _ => 0).1
      rw [getSipPeername_of_none hvalue hname] at hfalse
      exact Bool.false_ne_true hfalse
    · exact not_storesName hvalue hname (UriValue.length_lt_of_peername hplain hname) hroom h
  · rw [getSipPeername_of_some hvalue (UriValue.peername_text h)]
    exact ⟨rfl, take_copyTerminated buf hroom⟩
  · have hnone : peername value = none := by
      rw [Option.eq_none_iff_forall_ne_some]
      intro name hname
      obtain ⟨i, j, ⟨⟨r, hr, -⟩, -⟩, -⟩ := peername_eq_some_iff.mp hname
      rcases hr with hr | ⟨-, hr⟩
      · exact hno .sip (hr.1.isInfix.trans (List.drop_suffix r _).isInfix)
      · exact hno .tel (hr.1.isInfix.trans (List.drop_suffix r _).isInfix)
    have hempty : (ascii "empty").length < n := hroom
    rw [getSipPeername_of_none hvalue hnone]
    exact ⟨rfl, take_copyTerminated buf hempty⟩

/-- A caller without a display name. -/
def bareAddress : UriValue where
  before := ascii "<"
  scheme := .sip
  user := ascii "u"
  after := ascii "h>"
  before_plain u := by
    cases u <;> decide +kernel
  user_ne_nil := by decide
  user_plain := by decide

theorem sip_peername_bare :
    StoresName 256 (ascii "From: <sip:u@h>\r\n") 17 (ascii "From:") (ascii "u") :=
  ((sip_peername_iff 256 (ascii "From: <sip:u@h>\r\n") 17 (ascii "From:")).1 bareAddress
    (by decide +kernel) (by decide)).mpr ⟨by decide, fun h => absurd h (by decide)⟩

/-- A caller whose display name is an address, too. -/
def displayedAddress : UriValue where
  before := ascii "\"a@b\" <"
  scheme := .sip
  user := ascii "u"
  after := ascii "h>"
  before_plain u := by
    cases u <;> decide +kernel
  user_ne_nil := by decide
  user_plain := by decide

/-- The caller is taken for `empty`. -/
theorem sip_peername_false :
    ¬∀ (n : ℕ) (data : Bytes) (dataLen : ℕ) (tag : Bytes) (v : UriValue),
      (gettag data (intLen dataLen) tag).map (slice data) = some v.text → v.user.length < n →
        StoresName n data dataLen tag v.user := by
  intro h
  have hstores := h 256 (ascii "From: \"a@b\" <sip:u@h>\r\n") 24 (ascii "From:") displayedAddress
    (by decide +kernel) (by decide)
  exact absurd (hstores fun _ => 0).1 (by decide +kernel)

end PcapSipDump
