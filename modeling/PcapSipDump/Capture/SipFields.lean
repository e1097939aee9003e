import Mathlib.Order.Bounds.Basic
import PcapSipDump.Capture.MessageBody

/-!
# The fields of a message and their buffers

The caller, the callee and the Call-ID are copied from a message into arrays of 256 and 512 bytes.
The copies are as long as the fields of the message, so they fit exactly when the lines that the
fields are taken from keep to these lengths.
-/

namespace PcapSipDump

open Lib.CString

/-! ### The user part of a header -/

/-- The first occurrence of `a`, or of `b` if there is no `a`, is at position `i`. -/
def FirstOf (value a b : Bytes) (i : ℕ) : Prop :=
  IsLeast {i | a <+: value.drop i} i ∨
    (∀ j, ¬a <+: value.drop j) ∧ IsLeast {i | b <+: value.drop i} i

/-- The user part of a header is at positions `i` to `j`: behind the scheme of its first URI, up to
the first `@`, or to the first `>`. -/
def UserPartAt (value : Bytes) (i j : ℕ) : Prop :=
  (∃ r, FirstOf value (ascii "sip:") (ascii "tel:") r ∧ i = r + 4) ∧
    FirstOf value (ascii "@") (ascii ">") j ∧ i < j

lemma orElse_memmem_eq_some_iff {value a b : Bytes} {i : ℕ} :
    (memmem value a <|> memmem value b) = some i ↔ FirstOf value a b i := by
  rw [FirstOf, ← memmem_eq_some_iff, ← memmem_eq_some_iff, ← memmem_eq_none_iff]
  rcases memmem value a with _ | k <;> simp

lemma peername_eq_some_iff {value name : Bytes} :
    peername value = some name ↔ ∃ i j, UserPartAt value i j ∧ name = slice value (i, j - i) := by
  simp only [UserPartAt, ← orElse_memmem_eq_some_iff]
  unfold peername
  rcases (memmem value (ascii "sip:") <|> memmem value (ascii "tel:")) with _ | r
  · simp
  · rcases (memmem value (ascii "@") <|> memmem value (ascii ">")) with _ | r2
    · simp
    · simp only
      split
      · rename_i hle
        refine iff_of_false (by simp) ?_
        rintro ⟨i, j, ⟨⟨r', hr, rfl⟩, hj, hlt⟩, -⟩
        obtain rfl := Option.some.inj hr
        obtain rfl := Option.some.inj hj
        omega
      · rename_i hlt
        constructor
        · intro h
          exact ⟨r + 4, r2, ⟨⟨r, rfl, rfl⟩, rfl, not_le.mp hlt⟩, (Option.some.inj h).symm⟩
        · rintro ⟨i, j, ⟨⟨r', hr, rfl⟩, hj, -⟩, rfl⟩
          obtain rfl := Option.some.inj hr
          obtain rfl := Option.some.inj hj
          rfl

lemma FirstOf.lt {value a b : Bytes} {i : ℕ} (h : FirstOf value a b i) (ha : a ≠ []) (hb : b ≠ []) :
    i < value.length := by
  have hin : ∀ {x : Bytes}, x ≠ [] → x <+: value.drop i → i < value.length := by
    intro x hx hpre
    have hpos : 0 < x.length := List.length_pos_iff.mpr hx
    have hle := hpre.length_le
    rw [List.length_drop] at hle
    omega
  rcases h with h | ⟨-, h⟩
  · exact hin ha h.1
  · exact hin hb h.1

lemma length_userPart {value : Bytes} {i j : ℕ} (h : UserPartAt value i j) :
    (slice value (i, j - i)).length = j - i := by
  have hlt := h.2.1.lt (by decide) (by decide)
  have hij := h.2.2
  rw [slice, List.length_take, List.length_drop]
  show min (j - i) (value.length - i) = j - i
  omega

/-! ### The copies -/

/-- What the calls of `get_sip_peername` for a header and for its compact form copy into the
buffer, each string with a terminator, when they find these values. -/
def copiesFrom (value compactValue : Option Bytes) : List Bytes :=
  match peername (value.getD []) with
  | some s => [s]
  | none => [ascii "empty", (peername (compactValue.getD [])).getD (ascii "empty")]

/-- The copies from a message. -/
def nameCopies (data : Bytes) (len : ℕ) (tag compact : Bytes) : List Bytes :=
  copiesFrom ((gettag data (intLen len) tag).map (slice data))
    ((gettag data (intLen len) compact).map (slice data))

variable {data tag compact : Bytes} {len : ℕ}

lemma nameCopies_eq (htag : tag ≠ [] ∧ ∀ c ∈ tag, isEol c = false)
    (hcompact : compact ≠ [] ∧ ∀ c ∈ compact, isEol c = false) :
    nameCopies data len tag compact = copiesFrom (textValue (buffer data (intLen len)) tag)
      (textValue (buffer data (intLen len)) compact) :=
  congrArg₂ copiesFrom (map_slice_gettag htag.1 htag.2 _ _)
    (map_slice_gettag hcompact.1 hcompact.2 _ _)

/-- The buffer after the copies. -/
lemma sipPeername_eq_copies {n : ℕ} (htag : tag ≠ [] ∧ ∀ c ∈ tag, isEol c = false)
    (hcompact : compact ≠ [] ∧ ∀ c ∈ compact, isEol c = false) :
    sipPeername n data len tag compact =
      (nameCopies data len tag compact).foldl copyTerminated (fun _ => 0) := by
  rw [sipPeername_eq htag hcompact, nameCopies_eq htag hcompact, nameFrom, copiesFrom]
  rcases peername ((textValue (buffer data (intLen len)) tag).getD []) with _ | s <;> rfl

/-- The user part of a value, if there is one, is shorter than `n` bytes. -/
def UserPartBelow (n : ℕ) (value : Option Bytes) : Prop :=
  ∀ v, value = some v → ∀ i j, UserPartAt v i j → j - i < n

/-- The value has a user part. -/
def HasUserPart (value : Option Bytes) : Prop := ∃ v, value = some v ∧ ∃ i j, UserPartAt v i j

lemma not_userPartAt_nil (i j : ℕ) : ¬UserPartAt [] i j :=
  fun h => absurd (h.2.1.lt (by decide) (by decide)) (Nat.not_lt_zero j)

lemma peername_below_iff {n : ℕ} {value : Option Bytes} :
    (∀ s, peername (value.getD []) = some s → s.length < n) ↔ UserPartBelow n value := by
  simp only [peername_eq_some_iff]
  constructor
  · rintro h v rfl i j hij
    have hlt := h _ ⟨i, j, hij, rfl⟩
    rwa [Option.getD_some, length_userPart hij] at hlt
  · rintro h s ⟨i, j, hij, rfl⟩
    rw [length_userPart hij]
    cases value with
    | none => exact absurd hij (not_userPartAt_nil i j)
    | some v => exact h v rfl i j hij

lemma hasUserPart_iff {value : Option Bytes} :
    HasUserPart value ↔ peername (value.getD []) ≠ none := by
  rw [Option.ne_none_iff_exists']
  simp only [peername_eq_some_iff]
  constructor
  · rintro ⟨v, rfl, i, j, hij⟩
    exact ⟨_, i, j, hij, rfl⟩
  · rintro ⟨s, i, j, hij, -⟩
    cases value with
    | none => exact absurd hij (not_userPartAt_nil i j)
    | some v => exact ⟨v, rfl, i, j, hij⟩

/-- The copies fit when the user part of the header does, or that of the compact form, if the
header has none. -/
lemma copies_fit_iff (value compactValue : Option Bytes) :
    (∀ s ∈ copiesFrom value compactValue, s.length + 1 ≤ 256) ↔
      UserPartBelow 256 value ∧ (¬HasUserPart value → UserPartBelow 256 compactValue) := by
  rw [← peername_below_iff, ← peername_below_iff, hasUserPart_iff, copiesFrom]
  have hempty : (ascii "empty").length ≤ 255 := by decide
  rcases peername (value.getD []) with _ | s
  · -- `empty` is stored first, and then the name of the compact line or `empty` again
    rcases peername (compactValue.getD []) with _ | s'
    · simp only [Option.getD_none, List.mem_cons, List.not_mem_nil, or_false, or_self,
        Nat.reduceLeDiff, forall_eq, hempty, reduceCtorEq, IsEmpty.forall_iff, implies_true, ne_eq,
        not_true_eq_false, not_false_eq_true, and_self]
    · simp only [Option.getD_some, List.mem_cons, List.not_mem_nil, or_false, Nat.reduceLeDiff,
        forall_eq_or_imp, hempty, forall_eq, true_and, reduceCtorEq, Nat.lt_iff_add_one_le,
        IsEmpty.forall_iff, implies_true, ne_eq, not_true_eq_false, not_false_eq_true,
        Option.some.injEq, forall_eq', forall_const]
  · simp only [List.mem_cons, List.not_mem_nil, or_false, Nat.reduceLeDiff, forall_eq,
      Option.some.injEq, Nat.lt_iff_add_one_le, forall_eq', ne_eq, reduceCtorEq, not_false_eq_true,
      not_true_eq_false, IsEmpty.forall_iff, and_true]

lemma orElse_eq_some {a b : Option (ℕ × ℕ)} {v : ℕ × ℕ} (h : (a <|> b) = some v) :
    a = some v ∨ b = some v := by
  cases a with
  | none => exact Or.inr h
  | some a => exact Or.inl h

lemma map_orElse (a b : Option (ℕ × ℕ)) (f : ℕ × ℕ → Bytes) :
    (a <|> b).map f = (a.map f).or (b.map f) := by
  cases a <;> rfl

/-- The length of the value that is copied for a header. -/
lemma header_length_iff {n : ℕ} (htag : tag ≠ [] ∧ ∀ c ∈ tag, isEol c = false)
    (hcompact : compact ≠ [] ∧ ∀ c ∈ compact, isEol c = false) :
    (∀ v, getHeader data len tag compact = some v → v.2 < n) ↔
      ∀ value, (textValue (buffer data len) tag).or (textValue (buffer data len) compact) =
        some value → value.length < n := by
  have hlength : ∀ v, getHeader data len tag compact = some v → (slice data v).length = v.2 := by
    intro v hv
    have hin : v.1 + v.2 < (buffer data len).length := by
      rcases orElse_eq_some hv with hv | hv
      · exact (value_of_gettag htag.1 htag.2 hv).1
      · exact (value_of_gettag hcompact.1 hcompact.2 hv).1
    have hlen := (buffer_prefix_self data len).length_le
    rw [slice, List.length_take, List.length_drop]
    omega
  have hvalue : (getHeader data len tag compact).map (slice data) =
      (textValue (buffer data len) tag).or (textValue (buffer data len) compact) := by
    rw [getHeader, map_orElse, map_slice_gettag htag.1 htag.2,
      map_slice_gettag hcompact.1 hcompact.2, textValue, textValue]
  rw [← hvalue]
  constructor
  · intro h value hmap
    obtain ⟨v, hv, rfl⟩ := Option.map_eq_some_iff.mp hmap
    rw [hlength v hv]
    exact h v hv
  · intro h v hv
    rw [← hlength v hv]
    exact h _ (Option.map_eq_some_iff.mpr ⟨v, hv, rfl⟩)

/-! ### All fields -/

/-- What is copied from a message for the caller, the callee and the Call-ID fits into the arrays
with its terminator. -/
def FieldsFit (data : Bytes) (len : ℕ) : Prop :=
  (∀ s ∈ nameCopies data len (ascii "From:") (ascii "f:"), s.length + 1 ≤ 256) ∧
    (∀ s ∈ nameCopies data len (ascii "To:") (ascii "t:"), s.length + 1 ≤ 256) ∧
    ∀ v, getHeader data len (ascii "Call-ID:") (ascii "i:") = some v → v.2 + 1 ≤ 512

/-- The user part of a header of the text, or of its compact form if the header has none, is
shorter than 256 bytes. -/
def NameShort (text tag compact : Bytes) : Prop :=
  UserPartBelow 256 (textValue text tag) ∧
    (¬HasUserPart (textValue text tag) → UserPartBelow 256 (textValue text compact))

/-- The value of `Call-ID:`, or of `i:` if there is none, is shorter than 512 bytes. -/
def CallIdShort (text : Bytes) : Prop :=
  ∀ callId, (textValue text (ascii "Call-ID:")).or (textValue text (ascii "i:")) = some callId →
    callId.length < 512

/-- **The fields of a message and their buffers.**  The copies for the caller, the callee and the
Call-ID fit into the arrays if and only if the lines of the message that they are taken from keep
to the sizes of these.  The text that the names are looked for in has its length from an `int`;
where the length is a wrapped difference there is no text, and only the text `empty` is copied. -/
theorem sip_fields_fit_iff (p : Packet) (data : ℕ) :
    FieldsFit (p.mem.drop data) (dataLen p data) ↔
      NameShort (buffer (p.mem.drop data) (intLen (dataLen p data))) (ascii "From:") (ascii "f:") ∧
        NameShort (buffer (p.mem.drop data) (intLen (dataLen p data))) (ascii "To:") (ascii "t:") ∧
        CallIdShort (buffer (p.mem.drop data) (dataLen p data)) := by
  have htags : (ascii "From:" ≠ [] ∧ ∀ c ∈ ascii "From:", isEol c = false) ∧
      (ascii "f:" ≠ [] ∧ ∀ c ∈ ascii "f:", isEol c = false) ∧
      (ascii "To:" ≠ [] ∧ ∀ c ∈ ascii "To:", isEol c = false) ∧
      (ascii "t:" ≠ [] ∧ ∀ c ∈ ascii "t:", isEol c = false) := by decide +kernel
  have hids : (ascii "Call-ID:" ≠ [] ∧ ∀ c ∈ ascii "Call-ID:", isEol c = false) ∧
      (ascii "i:" ≠ [] ∧ ∀ c ∈ ascii "i:", isEol c = false) := by decide +kernel
  obtain ⟨hfrom, hf, hto, ht⟩ := htags
  rw [FieldsFit, nameCopies_eq hfrom hf, nameCopies_eq hto ht, copies_fit_iff, copies_fit_iff,
    CallIdShort, ← header_length_iff hids.1 hids.2]
  simp only [NameShort, Nat.lt_iff_add_one_le]

/-- An INVITE with a Call-ID of 512 bytes. -/
def longCallIdInvite : Packet :=
  Packet.captured 0 (ipv4Udp 1 0 [10, 0, 0, 1] [10, 0, 0, 2] 5060 5060
    (ascii "INVITE sip:b@h SIP/2.0\r\nFrom: <sip:a@h>\r\nTo: <sip:b@h>\r\nCall-ID: " ++
      List.replicate 512 97 ++ ascii "\r\n"))

/-- The Call-ID does not fit with its terminator. -/
theorem sip_fields_fit_false :
    ¬∀ (dlt : Dlt) (p : Packet) (ip : ℕ), headerIp dlt p.mem = some ip →
      isAdmitted false dlt p.caplen p.mem ip →
      (sipMethod (p.mem.drop (dataPos p.mem ip))).isSome →
      FieldsFit (p.terminate.mem.drop (dataPos p.mem ip))
        (dataLen p.terminate (dataPos p.mem ip)) := by
  intro h
  have hfit := (h .raw longCallIdInvite 0 (by decide +kernel) (by decide +kernel)
    (by decide +kernel)).2.2 (65, 512) (by decide +kernel)
  exact absurd hfit (by decide)

end PcapSipDump
