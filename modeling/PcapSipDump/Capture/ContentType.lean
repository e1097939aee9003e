import Mathlib.Data.List.DropRight
import PcapSipDump.Capture.MessageBody
import PcapSipDump.Capture.Verbosity

/-!
# The content type of a message

The body of a message is parsed as SDP when `strncasecmp` finds that the value of the header
agrees with `application/sdp` in as many characters as the *value* has, or with
`multipart/mixed;boundary=` in as many as the shorter of the two has.  So a beginning of these words
is taken for the whole, and `application/sdp` with a parameter is not recognised.
-/

namespace PcapSipDump

open Lib Lib.CString

variable {o : Options} {host : Host} {p : Packet} {value v w : Bytes} {k : ℕ}

/-! ### Media types -/

/-- The first media type that is parsed. -/
def applicationSdp : Bytes := ascii "application/sdp"

/-- The second media type that is parsed. -/
def multipartMixed : Bytes := ascii "multipart/mixed"

/-- The second text that a value is compared with. -/
def mixedBoundary : Bytes := ascii "multipart/mixed;boundary="

/-- A space or a tab. -/
def isBlank (c : UInt8) : Bool := c = 32 || c = 9

/-- The media type of a value: what is in front of the parameters, without trailing blanks. -/
def mediaType (value : Bytes) : Bytes := (value.takeWhile (· ≠ 59)).rdropWhile isBlank

/-- The media type is one of the two that are parsed, in upper or lower case. -/
def IsParsedType (value : Bytes) : Prop :=
  (mediaType value).map tolower = applicationSdp ∨ (mediaType value).map tolower = multipartMixed

instance : Decidable (IsParsedType value) := inferInstanceAs (Decidable (_ ∨ _))

/-- A value that is treated by its media type: the type stands alone, or in front of the parameter
that is expected, as far as the value goes; another value is no beginning of the types. -/
def IsTold (value : Bytes) : Prop :=
  let v := value.map tolower
  if IsParsedType value then v = applicationSdp ∨ v <+: mixedBoundary ∨ mixedBoundary <+: v
  else cstr v ≠ applicationSdp ∧ (v = [] ∨ ¬v <+: applicationSdp ∧ ¬v <+: multipartMixed)

/-- What the two comparisons accept, in lower case. -/
def IsAccepted (v : Bytes) : Prop :=
  v ≠ [] ∧ ((v <+: applicationSdp ∨ cstr v = applicationSdp) ∨
    (v <+: mixedBoundary ∨ mixedBoundary <+: v))

instance : Decidable (IsAccepted v) := inferInstanceAs (Decidable (_ ∧ _))

/-- The case of the letters does not matter for where the media type ends. -/
lemma map_mediaType (value : Bytes) :
    (mediaType value).map tolower = mediaType (value.map tolower) := by
  have hsemicolon : (fun c : UInt8 => decide (c ≠ 59)) ∘ tolower = fun c => decide (c ≠ 59) := by
    funext c
    exact decide_eq_decide.mpr (not_congr (tolower_eq_iff (by decide)))
  have hblank : isBlank ∘ tolower = isBlank := by
    funext c
    have h32 : decide (tolower c = 32) = decide (c = 32) :=
      decide_eq_decide.mpr (tolower_eq_iff (by decide))
    have h9 : decide (tolower c = 9) = decide (c = 9) :=
      decide_eq_decide.mpr (tolower_eq_iff (by decide))
    rw [Function.comp_apply, isBlank, h32, h9, isBlank]
  rw [mediaType, mediaType, List.takeWhile_map, hsemicolon, List.rdropWhile, List.rdropWhile]
  conv_rhs => rw [← List.map_reverse, List.dropWhile_map, hblank, ← List.map_reverse]

/-- The case does not matter for the type either. -/
lemma isParsedType_iff : IsParsedType value ↔
    mediaType (value.map tolower) = applicationSdp ∨
      mediaType (value.map tolower) = multipartMixed := by
  rw [IsParsedType, map_mediaType]

/-- A value without parameters and blanks is a media type. -/
lemma mediaType_eq_self (h : ∀ c ∈ v, c ≠ 59 ∧ isBlank c = false) : mediaType v = v := by
  have htake : v.takeWhile (· ≠ 59) = v :=
    List.takeWhile_eq_self_iff.mpr fun c hc => decide_eq_true (h c hc).1
  rw [mediaType, htake, List.rdropWhile_eq_self_iff]
  intro hne
  rw [(h _ (List.getLast_mem hne)).2]
  exact Bool.false_ne_true

/-- The parameters and the rest of a value do not belong to the media type. -/
lemma mediaType_append (h : ∀ c ∈ v, c ≠ 59 ∧ isBlank c = false) (rest : Bytes) :
    mediaType (v ++ 59 :: rest) = v := by
  rw [mediaType, takeWhile_append_cons v rest (by decide), ← mediaType, mediaType_eq_self h]

/-- A NUL stays in the media type. -/
lemma zero_mem_mediaType (h : ∀ c ∈ v, c ≠ 59) (rest : Bytes) : 0 ∈ mediaType (v ++ 0 :: rest) := by
  have htake : (v ++ 0 :: rest).takeWhile (· ≠ 59) = v ++ 0 :: rest.takeWhile (· ≠ 59) := by
    rw [List.takeWhile_append_of_pos fun c hc => decide_eq_true (h c hc),
      List.takeWhile_cons_of_pos (by decide)]
  have hmem : 0 ∈ (v ++ 0 :: rest).takeWhile (· ≠ 59) := by
    rw [htake]
    exact List.mem_append_right v List.mem_cons_self
  rw [← @List.rdropWhile_append_rtakeWhile _ isBlank ((v ++ 0 :: rest).takeWhile (· ≠ 59))] at hmem
  rcases List.mem_append.mp hmem with hmem | hmem
  · exact hmem
  · exact absurd (List.mem_rtakeWhile_imp hmem) (by decide)

/-! ### What is accepted -/

lemma plain_applicationSdp : ∀ c ∈ applicationSdp, c ≠ 59 ∧ isBlank c = false ∧ c ≠ 0 := by
  simp [applicationSdp, ascii, isBlank]

lemma plain_multipartMixed : ∀ c ∈ multipartMixed, c ≠ 59 ∧ isBlank c = false ∧ c ≠ 0 := by
  simp [multipartMixed, ascii, isBlank]

lemma mixedBoundary_eq : mixedBoundary = multipartMixed ++ 59 :: ascii "boundary=" := by
  simp [mixedBoundary, multipartMixed, ascii]

/-- A value of one of the two types is accepted when it is `application/sdp` alone or agrees with
the type and the parameter of the other one. -/
lemma isAccepted_iff_of_parsed (h : mediaType v = applicationSdp ∨ mediaType v = multipartMixed) :
    IsAccepted v ↔ v = applicationSdp ∨ v <+: mixedBoundary ∨ mixedBoundary <+: v := by
  have hne : v ≠ [] := by
    rintro rfl
    rcases h with h | h <;> exact absurd h (by decide)
  constructor
  · rintro ⟨-, (hv | hv) | hv⟩
    · -- a beginning of `application/sdp` is its own media type
      have hself : mediaType v = v := mediaType_eq_self fun c hc =>
        ⟨(plain_applicationSdp c (hv.subset hc)).1, (plain_applicationSdp c (hv.subset hc)).2.1⟩
      rw [hself] at h
      refine Or.inl (h.resolve_right ?_)
      rintro rfl
      exact absurd hv (by decide)
    · -- a NUL behind `application/sdp` would be in the media type
      left
      rcases cstr_cases v with hv' | ⟨rest, hv'⟩
      · exact hv'.symm.trans hv
      · rw [hv] at hv'
        have hmem : 0 ∈ mediaType v := by
          rw [hv']
          exact zero_mem_mediaType (fun c hc => (plain_applicationSdp c hc).1) rest
        rcases h with h | h
        · rw [h] at hmem
          exact absurd rfl (plain_applicationSdp 0 hmem).2.2
        · rw [h] at hmem
          exact absurd rfl (plain_multipartMixed 0 hmem).2.2
    · exact Or.inr hv
  · rintro (rfl | hv)
    · exact ⟨hne, Or.inl (Or.inl (List.prefix_refl _))⟩
    · exact ⟨hne, Or.inr hv⟩

/-- Another value is accepted when it is a beginning of one of the types, or goes on with a NUL. -/
lemma isAccepted_iff_of_not_parsed
    (h : ¬(mediaType v = applicationSdp ∨ mediaType v = multipartMixed)) :
    IsAccepted v ↔
      cstr v = applicationSdp ∨ v ≠ [] ∧ (v <+: applicationSdp ∨ v <+: multipartMixed) := by
  have hsemicolon : ¬multipartMixed ++ [59] <+: v := by
    rintro ⟨rest, rfl⟩
    refine h (Or.inr ?_)
    rw [List.append_assoc]
    exact mediaType_append (fun c hc => ⟨(plain_multipartMixed c hc).1,
      (plain_multipartMixed c hc).2.1⟩) rest
  have hword : multipartMixed ++ [59] <+: mixedBoundary := by
    rw [mixedBoundary_eq]
    exact ⟨ascii "boundary=", List.append_assoc _ _ _⟩
  constructor
  · rintro ⟨hne, (hv | hv) | hv | hv⟩
    · exact Or.inr ⟨hne, Or.inl hv⟩
    · exact Or.inl hv
    · refine Or.inr ⟨hne, Or.inr ?_⟩
      have hshort : v.length ≤ multipartMixed.length := by
        by_contra hlong
        refine hsemicolon (List.prefix_of_prefix_length_le hword hv ?_)
        rw [List.length_append, List.length_singleton]
        omega
      exact List.prefix_of_prefix_length_le hv
        ((List.prefix_append _ _).trans hword) hshort
    · exact absurd (hword.trans hv) hsemicolon
  · rintro (hv | ⟨hne, hv | hv⟩)
    · refine ⟨?_, Or.inl (Or.inr hv)⟩
      rintro rfl
      exact absurd hv (by decide)
    · exact ⟨hne, Or.inl (Or.inl hv)⟩
    · exact ⟨hne, Or.inr (Or.inl (hv.trans ((List.prefix_append _ _).trans hword)))⟩

/-- The values that are told apart are those that are accepted exactly for their media type. -/
lemma isTold_iff : IsTold value ↔ (IsAccepted (value.map tolower) ↔ IsParsedType value) := by
  rw [IsTold]
  by_cases h : IsParsedType value
  · rw [if_pos h, isAccepted_iff_of_parsed (isParsedType_iff.mp h)]
    exact (iff_true_right h).symm
  · rw [if_neg h, isAccepted_iff_of_not_parsed (isParsedType_iff.not.mp h)]
    rw [iff_false_right h, not_or, not_and_or, not_not, not_or]

/-! ### The two comparisons -/

section Compare

variable {s : Bytes} {n : ℕ}

/-- A comparison that ends with the value only reads the value. -/
lemma strncasecmpEq_value {lit : Bytes} (hlit : ∀ c ∈ lit, c ≠ 0 ∧ tolower c = c)
    (hs : value <+: s) (hn : n ≤ value.length) :
    strncasecmpEq n s lit ↔ (cstr (value.map tolower)).take n = lit.take n := by
  obtain ⟨rest, rfl⟩ := hs
  have hmap : lit.map tolower = lit := by
    conv_rhs => rw [← List.map_id lit]
    exact List.map_congr_left fun c hc => (hlit c hc).2
  have hcstr : (cstr ((value ++ rest).map tolower)).take n =
      (cstr (value.map tolower)).take n := by
    rw [← cstr_take, ← cstr_take, List.map_append, List.take_append_of_le_length]
    rwa [List.length_map]
  rw [strncasecmpEq_eq, strncmpEq_iff, hmap, cstr_eq_self fun c hc => (hlit c hc).1, hcstr]

/-- The comparison with `application/sdp`. -/
lemma strncasecmpEq_applicationSdp (hs : value <+: s) :
    strncasecmpEq value.length s applicationSdp ↔
      value.map tolower <+: applicationSdp ∨ cstr (value.map tolower) = applicationSdp := by
  have hlit : ∀ c ∈ applicationSdp, c ≠ 0 ∧ tolower c = c := by
    simp [applicationSdp, ascii, tolower]
  have hlen : (value.map tolower).length = value.length := List.length_map _
  have htake : (cstr (value.map tolower)).take value.length = cstr (value.map tolower) :=
    List.take_of_length_le (hlen ▸ (List.takeWhile_prefix _).length_le)
  rw [strncasecmpEq_value hlit hs le_rfl, htake]
  by_cases hlong : value.length ≤ applicationSdp.length
  · have hnul : ∀ c ∈ applicationSdp.take value.length, c ≠ 0 :=
      fun c hc => (hlit c (List.mem_of_mem_take hc)).1
    rw [cstr_eq_iff (by rw [hlen, List.length_take, min_eq_left hlong]) hnul,
      List.prefix_iff_eq_take, hlen]
    refine (or_iff_left_of_imp fun h => ?_).symm
    have hpre : cstr (value.map tolower) <+: value.map tolower := List.takeWhile_prefix _
    have hle := hpre.length_le
    rw [h, hlen] at hle
    rw [List.take_of_length_le hle, ← h]
    exact (hpre.eq_of_length (by rw [h, hlen]; exact le_antisymm hle hlong)).symm
  · rw [List.take_of_length_le (not_le.mp hlong).le]
    refine (or_iff_right fun h => hlong ?_).symm
    rw [← hlen]
    exact h.length_le

/-- The comparison with `multipart/mixed;boundary=`. -/
lemma strncasecmpEq_mixedBoundary (hs : value <+: s) :
    strncasecmpEq (min value.length 25) s mixedBoundary ↔
      value.map tolower <+: mixedBoundary ∨ mixedBoundary <+: value.map tolower := by
  have hlit : ∀ c ∈ mixedBoundary, c ≠ 0 ∧ tolower c = c := by
    simp [mixedBoundary, ascii, tolower]
  have hlen : (value.map tolower).length = value.length := List.length_map _
  have h25 : mixedBoundary.length = 25 := by decide
  have hnul : ∀ c ∈ mixedBoundary.take (min value.length 25), c ≠ 0 :=
    fun c hc => (hlit c (List.mem_of_mem_take hc)).1
  rw [strncasecmpEq_value hlit hs (min_le_left _ _), ← cstr_take,
    cstr_eq_iff (by simp [h25]) hnul]
  rcases le_total value.length 25 with hle | hle
  · rw [min_eq_left hle, ← hlen, List.take_length, ← List.prefix_iff_eq_take]
    refine (or_iff_left_of_imp fun h => ?_).symm
    rw [h.eq_of_length_le (by rw [hlen, h25]; exact hle)]
  · rw [min_eq_right hle, ← h25, List.take_length, eq_comm, ← List.prefix_iff_eq_take]
    refine (or_iff_right_of_imp fun h => ?_).symm
    rw [h.eq_of_length_le (by rw [hlen, h25]; exact hle)]

end Compare

/-! ### The call of `parse_sdp` -/

/-- The value of the header in the payload of a packet, in its full or in its compact form. -/
def contentType (p : Packet) (ip : ℕ) : Option Bytes :=
  (getHeader (sipPayload p ip) (sipPayloadLen p ip) (ascii "Content-Type:") (ascii "c:")).map
    (slice (sipPayload p ip))

lemma isEol_contentType : (∀ c ∈ ascii "Content-Type:", isEol c = false) ∧
    ∀ c ∈ ascii "c:", isEol c = false := by
  simp [ascii, isEol]

/-- A header that is found is a part of the payload. -/
lemma slice_getHeader {data : Bytes} {len : ℕ} {x : ℕ × ℕ}
    (h : getHeader data len (ascii "Content-Type:") (ascii "c:") = some x) :
    slice data x <+: data.drop x.1 ∧ (slice data x).length = x.2 := by
  have hbound : x.1 + x.2 < (buffer data len).length := by
    rw [getHeader] at h
    rcases hfull : gettag data len (ascii "Content-Type:") with _ | y
    · rw [hfull] at h
      exact (value_of_gettag (by decide) isEol_contentType.2 h).1
    · rw [hfull] at h
      obtain rfl : y = x := Option.some.inj h
      exact (value_of_gettag (by decide) isEol_contentType.1 hfull).1
  have hlt := hbound.trans_le (buffer_prefix_self data len).length_le
  refine ⟨List.take_prefix _ _, ?_⟩
  rw [slice, List.length_take, List.length_drop]
  omega

/-- The SDP of a message by the value of its content type. -/
lemma parsedSdp_eq_value (data : Bytes) (len : ℕ) : parsedSdp data len =
    match (getHeader data len (ascii "Content-Type:") (ascii "c:")).map (slice data),
      strstr data blankLine with
    | some value, some k =>
        if IsAccepted (value.map tolower) then
          some (data.drop k, (UInt64.ofNat len - UInt64.ofNat k).toNat)
        else none
    | _, _ => none := by
  rw [parsedSdp, ← blankLine]
  rcases hx : getHeader data len (ascii "Content-Type:") (ascii "c:") with _ | x
  · rfl
  obtain ⟨hpre, hlength⟩ := slice_getHeader hx
  have haccepted : 0 < x.2 ∧ (strncasecmpEq x.2 (data.drop x.1) (ascii "application/sdp") = true ∨
      strncasecmpEq (min x.2 25) (data.drop x.1) (ascii "multipart/mixed;boundary=") = true) ↔
      IsAccepted ((slice data x).map tolower) := by
    have hpos : 0 < x.2 ↔ (slice data x).map tolower ≠ [] := by
      rw [← hlength, List.length_pos_iff, Ne, Ne, List.map_eq_nil_iff]
    have hsdp := strncasecmpEq_applicationSdp hpre
    have hmixed := strncasecmpEq_mixedBoundary hpre
    rw [hlength] at hsdp hmixed
    rw [IsAccepted, hpos]
    exact and_congr_right' (or_congr hsdp hmixed)
  rcases strstr data blankLine with _ | k
  · rfl
  dsimp only [Option.map_some]
  by_cases haccept : IsAccepted ((slice data x).map tolower)
  · rw [if_pos haccept, if_pos (haccepted.mpr haccept)]
  · rw [if_neg haccept, if_neg (haccepted.not.mpr haccept)]

/-- What `parse_sdp` is called with. -/
lemma parsedSdp_of_isLeast {data : Bytes} {len : ℕ}
    (hvalue : (getHeader data len (ascii "Content-Type:") (ascii "c:")).map (slice data) =
      some value)
    (hblank : IsLeast {i | blankLine <+: data.drop i} k) :
    parsedSdp data len = if 0 ∈ data.take k then none
      else if IsAccepted (value.map tolower) then
        some (data.drop k, (UInt64.ofNat len - UInt64.ofNat k).toNat)
      else none := by
  have hfound : strstr data blankLine = if 0 ∈ data.take k then none else some k :=
    strstr_of_isLeast (by simp [blankLine, ascii]) hblank
  rw [parsedSdp_eq_value, hvalue, hfound]
  by_cases hnul : 0 ∈ data.take k
  · rw [if_pos hnul, if_pos hnul]
  · rw [if_neg hnul, if_neg hnul]

/-- The blank line of the message is the first one in memory. -/
lemma isLeast_blankLine {data : Bytes} {len : ℕ}
    (h : IsLeast {i | blankLine <+: (data.take len).drop i} k) :
    IsLeast {i | blankLine <+: data.drop i} k ∧ k ≤ len := by
  have hin : ∀ {i}, blankLine <+: (data.take len).drop i → blankLine <+: data.drop i := by
    intro i hi
    rw [List.drop_take] at hi
    exact hi.trans (List.take_prefix _ _)
  have hlen : k + blankLine.length ≤ len := by
    have hle := h.1.length_le
    have hpos : 0 < blankLine.length := by decide
    rw [List.length_drop, List.length_take] at hle
    omega
  refine ⟨⟨hin h.1, fun i hi => ?_⟩, by omega⟩
  by_contra hlt
  have hfit : blankLine.length ≤ len - i := by omega
  refine hlt (h.2 ?_)
  show blankLine <+: (data.take len).drop i
  rw [List.drop_take]
  exact List.prefix_take_iff.mpr ⟨hi, hfit⟩

/-- The assignments of a message to the element of its call when `parse_sdp` is called with a text
and its length, or not called. -/
def callWrites (o : Options) (msg : SipMessage) : Option (Bytes × ℕ) → List ElementWrite
  | some (sdp, sdplen) =>
      (if msg.isBye then [.bye] else []) ++ parseSdp o.verbosity o.optT38only sdp sdplen
  | none => if msg.isBye then [.bye] else []

lemma writes_eq {w : World} {ip : ℕ} {msg : SipMessage} (h : branch o p w = .sip ip msg) :
    msg.writes = callWrites o msg (parsedSdp (sipPayload p ip) (sipPayloadLen p ip)) := by
  rw [SipMessage.writes, body_eq_of_branch_sip h, parseBody_eq]
  rcases parsedSdp (sipPayload p ip) (sipPayloadLen p ip) with _ | ⟨sdp, sdplen⟩
  · exact List.append_nil _
  · rfl

/-- **The content type and the body.**  For a message of a known call that has a content type and a
blank line, `parse_sdp` is called with the text from the blank line on exactly for the two media
types, if and only if no NUL stands in front of the blank line and the value is told apart by the
comparisons, or a NUL stands there and the media type is none of the two. -/
theorem contentType_iff (o : Options) (host : Host) (pre : List Input) (p : Packet) (ip i k : ℕ)
    (msg : SipMessage) (t : State) (value : Bytes)
    (hb : branch o p (afterPass ((loop o host).run o.start pre) (.packet p)).world = .sip ip msg)
    (hcall : findOrAdd o host msg p.ts (afterPass ((loop o host).run o.start pre) (.packet p)) =
      (some i, t))
    (hvalue : contentType p ip = some value)
    (hblank : IsLeast {i | blankLine <+: ((sipPayload p ip).take (sipPayloadLen p ip)).drop i} k) :
    let s' := (loop o host).next ((loop o host).run o.start pre) (.packet p)
    let parsed := parsedSdp (sipPayload p ip) (sipPayloadLen p ip)
    s'.world.slot i = (callWrites o msg parsed).foldl (fun c e => e.apply c) (t.world.slot i) ∧
      ((parsed = if IsParsedType value then
          some ((sipPayload p ip).drop k, sipPayloadLen p ip - k) else none) ↔
        if 0 ∈ (sipPayload p ip).take k then ¬IsParsedType value else IsTold value) := by
  intro s' parsed
  have hw : (afterPass ((loop o host).run o.start pre) (.packet p)).world.ct.TableInv :=
    ((owns_run o host pre).afterPass (.packet p)).tableInv
  obtain ⟨hleast, hle⟩ := isLeast_blankLine hblank
  have hlen : (UInt64.ofNat (sipPayloadLen p ip) - UInt64.ofNat k).toNat =
      sipPayloadLen p ip - k := by
    have hlt : sipPayloadLen p ip < UInt64.size := UInt64.toNat_lt_size _
    have hk : (UInt64.ofNat k).toNat = k := UInt64.toNat_ofNat_of_lt' (hle.trans_lt hlt)
    have hl : (UInt64.ofNat (sipPayloadLen p ip)).toNat = sipPayloadLen p ip :=
      UInt64.toNat_ofNat_of_lt' hlt
    rw [UInt64.toNat_sub_of_le _ _ (by rw [UInt64.le_iff_toNat_le, hk, hl]; exact hle), hk, hl]
  have hparsed : parsed = _ := parsedSdp_of_isLeast hvalue hleast
  rw [hlen] at hparsed
  refine ⟨?_, ?_⟩
  · rw [← writes_eq hb]
    exact slot_dispatch_sip hw hb hcall
  · rw [hparsed]
    by_cases hnul : 0 ∈ (sipPayload p ip).take k
    · rw [if_pos hnul, if_pos hnul]
      by_cases htype : IsParsedType value
      · simp [htype]
      · simp [htype]
    · rw [if_neg hnul, if_neg hnul, isTold_iff]
      by_cases htype : IsParsedType value <;>
        by_cases haccept : IsAccepted (value.map tolower) <;> simp [htype, haccept]

/-- The call of the first message with a Call-ID. -/
lemma exists_call_of_message {callId : Bytes} (hip : headerIp Options.raw.dlt p.mem = some 0)
    (h : (branch Options.raw p (afterPass Options.raw.start (.packet p)).world).message.map
      (fun msg => (msg.method, msg.callId)) = some (ascii "INVITE", some callId)) :
    ∃ msg i t, branch Options.raw p (afterPass Options.raw.start (.packet p)).world = .sip 0 msg ∧
      findOrAdd Options.raw Host.numbering msg p.ts (afterPass Options.raw.start (.packet p)) =
        (some i, t) := by
  obtain ⟨ip, msg, hb, -, hid⟩ := exists_of_message h
  obtain ⟨-, hip', -⟩ := of_branch_sip hb
  obtain rfl := Option.some.inj (hip.symm.trans hip')
  rcases hf : (afterPass Options.raw.start (.packet p)).world.ct.findByCallId callId with _ | i
  · exact ⟨msg, _, _, hb, findOrAdd_added hid hf rfl Host.numbering p.ts⟩
  · exact ⟨msg, i, _, hb, findOrAdd_found hid hf Options.raw Host.numbering p.ts⟩

/-- The body of an INVITE with the content type `application/sdp` is parsed. -/
theorem contentType_invite :
    let p : Packet := .captured 1000 (invite "x")
    parsedSdp (sipPayload p 0) (sipPayloadLen p 0) =
      some ((sipPayload p 0).drop 97, sipPayloadLen p 0 - 97) := by
  intro p
  obtain ⟨msg, i, t, hb, hcall⟩ := @exists_call_of_message p _ (by decide +kernel)
    (show _ = some (ascii "INVITE", some (ascii "x")) by decide +kernel)
  have hvalue : contentType p 0 = some (ascii "application/sdp") := by decide +kernel
  have hblank : IsLeast {i | blankLine <+: ((sipPayload p 0).take (sipPayloadLen p 0)).drop i} 97 :=
    memmem_eq_some_iff.mp (by decide +kernel)
  have htype : IsParsedType (ascii "application/sdp") := by decide
  have h := (contentType_iff Options.raw Host.numbering [] p 0 i 97 msg t _ hb hcall hvalue
    hblank).2.mpr (by
      rw [if_neg (by decide +kernel), IsTold, if_pos htype]
      exact Or.inl (by decide))
  rw [if_pos htype] at h
  exact h

/-- An INVITE with a parameter behind the type. -/
def charsetInvite : Packet :=
  .captured 1000 (ipv4Udp 1 0 [10, 0, 0, 1] [10, 0, 0, 2] 5060 5060
    (ascii "INVITE sip:b@h SIP/2.0\r\nCall-ID: x\r\nContent-Type: application/sdp;charset=utf-8" ++
      blankLine ++ sdpBody "10.0.0.1" "4000"))

/-- The body is not parsed behind `application/sdp;charset=utf-8`. -/
theorem contentType_false :
    ¬∀ (o : Options) (host : Host) (pre : List Input) (p : Packet) (ip i k : ℕ)
      (msg : SipMessage) (t : State) (value : Bytes),
      branch o p (afterPass ((loop o host).run o.start pre) (.packet p)).world = .sip ip msg →
      findOrAdd o host msg p.ts (afterPass ((loop o host).run o.start pre) (.packet p)) =
        (some i, t) →
      contentType p ip = some value →
      IsLeast {i | blankLine <+: ((sipPayload p ip).take (sipPayloadLen p ip)).drop i} k →
      parsedSdp (sipPayload p ip) (sipPayloadLen p ip) = if IsParsedType value then
        some ((sipPayload p ip).drop k, sipPayloadLen p ip - k) else none := by
  intro h
  obtain ⟨msg, i, t, hb, hcall⟩ := @exists_call_of_message charsetInvite _ (by decide +kernel)
    (show _ = some (ascii "INVITE", some (ascii "x")) by decide +kernel)
  have hparsed := h Options.raw Host.numbering [] charsetInvite 0 i 79 msg t
    (ascii "application/sdp;charset=utf-8") hb hcall (by decide +kernel)
    (memmem_eq_some_iff.mp (by decide +kernel))
  have hnone : parsedSdp (sipPayload charsetInvite 0) (sipPayloadLen charsetInvite 0) = none := by
    decide +kernel
  rw [hnone, if_pos (by decide)] at hparsed
  exact absurd hparsed.symm (Option.some_ne_none _)

end PcapSipDump
