import PcapSipDump.Capture.TaggedLines

/-!
# The payload type of telephone events

`sdp_get_rtpmap_event` looks at one line, the first one with the tag `a=rtpmap:`, and takes what
stands in front of ` telephone-event/` for a number, if that is one to three bytes
(`sdpGetRtpmapEvent_eq_iff`).  So the payload type of a text is found exactly when the first
`a=rtpmap:` line is the one that maps it, up to lines that are misread (`rtpmap_event_iff`).
-/

namespace PcapSipDump

open Lib.CString

variable {sdp line : Bytes} {n : ℕ}

/-- The attribute that maps a payload type to a format. -/
def rtpmapTag : Bytes := ascii "a=rtpmap:"

/-- The format of telephone events, between the payload type and the clock rate. -/
def telephoneEvent : Bytes := ascii " telephone-event/"

lemma isEol_rtpmapTag : ∀ c ∈ rtpmapTag, isEol c = false := by
  simp [rtpmapTag, ascii, isEol]

/-- The payload type of telephone events that a line gives: a decimal of one to three digits, from 1
to 255. -/
def eventType (line : Bytes) : Option ℕ :=
  let value := line.drop rtpmapTag.length
  let digits := value.takeWhile isdigit
  if rtpmapTag.isPrefixOf line ∧ (1 ≤ digits.length ∧ digits.length ≤ 3) ∧
      telephoneEvent.isPrefixOf (value.dropWhile isdigit) ∧
      (1 ≤ leadingDigits value ∧ leadingDigits value ≤ 255) then
    some (leadingDigits value)
  else none

/-- The terminated lines of the C string at the start of `sdp`. -/
def textLines (sdp : Bytes) : List Bytes := (lines (cstr sdp)).dropLast

/-- `sdp_get_rtpmap_event` returns the payload type of the first line that gives one, and zero
exactly if there is none. -/
def FindsEvent (sdp : Bytes) : Prop :=
  (∀ n, 1 ≤ n ∧ n ≤ 255 →
      ((sdpGetRtpmapEvent sdp).toNat = n ↔ (textLines sdp).findSome? eventType = some n)) ∧
    ((sdpGetRtpmapEvent sdp).toNat = 0 ↔ ∀ line ∈ textLines sdp, eventType line = none)

/-! ### Lines that give a payload type -/

lemma eventType_eq_some_iff : eventType line = some n ↔
    ∃ digits rest, line = rtpmapTag ++ (digits ++ (telephoneEvent ++ rest)) ∧
      (∀ c ∈ digits, isdigit c) ∧ (1 ≤ digits.length ∧ digits.length ≤ 3) ∧
      leadingDigits digits = n ∧ 1 ≤ n ∧ n ≤ 255 := by
  constructor
  · intro h
    unfold eventType at h
    dsimp only at h
    split at h
    · rename_i hline
      obtain ⟨htag, hlength, hevent, hrange⟩ := hline
      obtain ⟨value, rfl⟩ := List.isPrefixOf_iff_prefix.mp htag
      rw [List.drop_left] at *
      obtain ⟨rest, hrest⟩ := List.isPrefixOf_iff_prefix.mp hevent
      obtain rfl := Option.some.inj h
      refine ⟨value.takeWhile isdigit, rest, ?_, fun c hc => List.mem_takeWhile_imp hc, hlength,
        leadingDigits_takeWhile value, hrange⟩
      rw [hrest, List.takeWhile_append_dropWhile]
    · simp at h
  · rintro ⟨digits, rest, rfl, hdigits, hlength, rfl, hrange⟩
    have htake : (digits ++ (telephoneEvent ++ rest)).takeWhile isdigit = digits := by
      rw [List.takeWhile_append_of_pos hdigits]
      simp [telephoneEvent, ascii, isdigit]
    have hdrop : (digits ++ (telephoneEvent ++ rest)).dropWhile isdigit =
        telephoneEvent ++ rest := by
      rw [List.dropWhile_append_of_pos hdigits]
      simp [telephoneEvent, ascii, isdigit]
    have hvalue : leadingDigits (digits ++ (telephoneEvent ++ rest)) = leadingDigits digits :=
      leadingDigits_line (by decide) digits _
    unfold eventType
    dsimp only
    rw [List.drop_left, htake, hdrop, hvalue, if_pos]
    exact ⟨List.isPrefixOf_iff_prefix.mpr (List.prefix_append _ _), hlength,
      List.isPrefixOf_iff_prefix.mpr (List.prefix_append _ _), hrange⟩

lemma eventType_eq_none (h : ¬rtpmapTag <+: line) : eventType line = none := by
  unfold eventType
  exact if_neg fun hline => h (List.isPrefixOf_iff_prefix.mp hline.1)

/-- The payload type of a text is in 1..255. -/
lemma range_of_firstEvent (h : (textLines sdp).findSome? eventType = some n) : 1 ≤ n ∧ n ≤ 255 := by
  obtain ⟨line, -, hline⟩ := List.exists_of_findSome?_eq_some h
  obtain ⟨-, -, -, -, -, -, hrange⟩ := eventType_eq_some_iff.mp hline
  exact hrange

/-! ### What the function reads -/

/-- The function takes `n` for the payload type: it is the number that `atol` reads in the one to
three bytes between the first tag `a=rtpmap:`, with the blanks behind it, and the name of the
format. -/
def TakenFor (sdp : Bytes) (n : ℕ) : Prop :=
  ∃ v head tail, gettag sdp ((cstr sdp).length % 2 ^ 32) rtpmapTag = some v ∧
    sdp.drop v.1 = head ++ (telephoneEvent ++ tail) ∧ (1 ≤ head.length ∧ head.length ≤ 3) ∧
    atol head = n ∧ 1 ≤ n ∧ n ≤ 255

/-- The number in front of the name of the format is not read any further. -/
lemma atol_telephoneEvent (head tail : Bytes) :
    atol (head ++ (telephoneEvent ++ tail)) = atol head :=
  atol_before_word (by decide) (by decide) (by decide) (by decide) head _

/-- The three comparisons. -/
lemma strncmpEq_telephoneEvent (s : Bytes) :
    (strncmpEq telephoneEvent.length telephoneEvent (s.drop 1) ∨
        strncmpEq telephoneEvent.length telephoneEvent (s.drop 2) ∨
        strncmpEq telephoneEvent.length telephoneEvent (s.drop 3)) ↔
      ∃ head tail, s = head ++ (telephoneEvent ++ tail) ∧ 1 ≤ head.length ∧ head.length ≤ 3 := by
  have hcmp : ∀ k, strncmpEq telephoneEvent.length telephoneEvent (s.drop k) ↔
      telephoneEvent <+: s.drop k :=
    fun k => strncmpEq_iff_prefix (by simp [telephoneEvent, ascii]) _
  have hsplit : ∀ k, telephoneEvent <+: s.drop k →
      ∃ head tail, s = head ++ (telephoneEvent ++ tail) ∧ head.length = k := by
    rintro k ⟨tail, htail⟩
    refine ⟨s.take k, tail, ?_, ?_⟩
    · rw [htail, List.take_append_drop]
    · have hlength := congrArg List.length htail
      have hpos : 0 < telephoneEvent.length := by decide
      rw [List.length_append, List.length_drop] at hlength
      rw [List.length_take]
      omega
  rw [hcmp, hcmp, hcmp]
  constructor
  · rintro (h | h | h) <;>
    · obtain ⟨head, tail, hs, hlength⟩ := hsplit _ h
      exact ⟨head, tail, hs, by omega, by omega⟩
  · rintro ⟨head, tail, rfl, hpos, hle⟩
    have hat : telephoneEvent <+: (head ++ (telephoneEvent ++ tail)).drop head.length := by
      rw [List.drop_left]
      exact List.prefix_append _ _
    have hlength : head.length = 1 ∨ head.length = 2 ∨ head.length = 3 := by omega
    rcases hlength with h | h | h
    · exact Or.inl (h ▸ hat)
    · exact Or.inr (Or.inl (h ▸ hat))
    · exact Or.inr (Or.inr (h ▸ hat))

/-- The conversion to the return type. -/
lemma toNat_ofInt_eq_iff {s : Bytes} (h : 1 ≤ n) :
    (if atol s % 2 ^ 64 ≤ 255 then UInt8.ofInt (atol s) else 0).toNat = n ↔
      atol s = n ∧ n ≤ 255 := by
  obtain ⟨hlow, hhigh⟩ := atol_bounds s
  split
  · rename_i hsmall
    obtain ⟨m, hm⟩ : ∃ m : ℕ, atol s = m := ⟨(atol s).toNat, by omega⟩
    rw [hm] at hsmall ⊢
    rw [UInt8.ofInt, UInt8.toNat_ofNat']
    omega
  · rw [UInt8.toNat_zero]
    omega

lemma sdpGetRtpmapEvent_of_none
    (h : gettag sdp ((cstr sdp).length % 2 ^ 32) rtpmapTag = none) : sdpGetRtpmapEvent sdp = 0 := by
  unfold rtpmapTag at h
  unfold sdpGetRtpmapEvent
  simp only [h]

lemma sdpGetRtpmapEvent_of_some {v : ℕ × ℕ}
    (h : gettag sdp ((cstr sdp).length % 2 ^ 32) rtpmapTag = some v) :
    sdpGetRtpmapEvent sdp =
      if strncmpEq telephoneEvent.length telephoneEvent ((sdp.drop v.1).drop 1) ∨
          strncmpEq telephoneEvent.length telephoneEvent ((sdp.drop v.1).drop 2) ∨
          strncmpEq telephoneEvent.length telephoneEvent ((sdp.drop v.1).drop 3) then
        if atol (sdp.drop v.1) % 2 ^ 64 ≤ 255 then UInt8.ofInt (atol (sdp.drop v.1)) else 0
      else 0 := by
  unfold rtpmapTag at h
  unfold sdpGetRtpmapEvent telephoneEvent
  simp only [h]

/-- **What `sdp_get_rtpmap_event` returns.** -/
theorem sdpGetRtpmapEvent_eq_iff (h : 1 ≤ n) :
    (sdpGetRtpmapEvent sdp).toNat = n ↔ TakenFor sdp n := by
  rcases hv : gettag sdp ((cstr sdp).length % 2 ^ 32) rtpmapTag with _ | v
  · rw [sdpGetRtpmapEvent_of_none hv, UInt8.toNat_zero]
    refine iff_of_false (by omega) ?_
    rintro ⟨v, -, -, hsome, -⟩
    rw [hv] at hsome
    simp at hsome
  · rw [sdpGetRtpmapEvent_of_some hv]
    constructor
    · intro hr
      split at hr
      · rename_i hname
        obtain ⟨head, tail, hs, hlength⟩ := (strncmpEq_telephoneEvent _).mp hname
        rw [toNat_ofInt_eq_iff h, hs, atol_telephoneEvent] at hr
        exact ⟨v, head, tail, hv, hs, hlength, hr.1, h, hr.2⟩
      · rw [UInt8.toNat_zero] at hr
        omega
    · rintro ⟨w, head, tail, hw, hs, hlength, hvalue, -, hle⟩
      obtain rfl := Option.some.inj (hv.symm.trans hw)
      rw [if_pos ((strncmpEq_telephoneEvent _).mpr ⟨head, tail, hs, hlength⟩),
        toNat_ofInt_eq_iff h, hs, atol_telephoneEvent]
      exact ⟨hvalue, hle⟩

lemma TakenFor.unique {m : ℕ} (hm : TakenFor sdp m) (hn : TakenFor sdp n) : m = n := by
  obtain ⟨-, -, -, -, -, -, -, hrange⟩ := id hm
  obtain ⟨-, -, -, -, -, -, -, hrange'⟩ := id hn
  rw [← (sdpGetRtpmapEvent_eq_iff hrange.1).mpr hm, (sdpGetRtpmapEvent_eq_iff hrange'.1).mpr hn]

/-- The payload type is found exactly if what the function takes for it is the payload type. -/
lemma findsEvent_iff :
    FindsEvent sdp ↔ ∀ n, TakenFor sdp n ↔ (textLines sdp).findSome? eventType = some n := by
  have hrange : ∀ {n}, TakenFor sdp n → 1 ≤ n ∧ n ≤ 255 :=
    fun ⟨_, _, _, _, _, _, _, hrange⟩ => hrange
  constructor
  · rintro ⟨hsome, -⟩ n
    constructor
    · intro htaken
      exact (hsome n (hrange htaken)).mp ((sdpGetRtpmapEvent_eq_iff (hrange htaken).1).mpr htaken)
    · intro hfirst
      have hn := range_of_firstEvent hfirst
      exact (sdpGetRtpmapEvent_eq_iff hn.1).mp ((hsome n hn).mpr hfirst)
  · intro h
    refine ⟨fun n hn => (sdpGetRtpmapEvent_eq_iff hn.1).trans (h n), ?_⟩
    rw [← List.findSome?_eq_none_iff]
    constructor
    · intro hzero
      rw [Option.eq_none_iff_forall_ne_some]
      intro n hfirst
      have hn := (range_of_firstEvent hfirst).1
      have hvalue := (sdpGetRtpmapEvent_eq_iff hn).mpr ((h n).mpr hfirst)
      omega
    · intro hnone
      by_contra hpos
      have htaken := (sdpGetRtpmapEvent_eq_iff (n := (sdpGetRtpmapEvent sdp).toNat)
        (by omega)).mp rfl
      have hfirst := (h _).mp htaken
      rw [hnone] at hfirst
      simp at hfirst

/-! ### The line that the function looks at -/

/-- The text that the function searches: the length is kept in 32 bits. -/
def searchedText (sdp : Bytes) : Bytes := (cstr sdp).take ((cstr sdp).length % 2 ^ 32)

/-- The first line with the tag `a=rtpmap:`. -/
def firstRtpmap (sdp : Bytes) : Option Bytes :=
  (lines (searchedText sdp)).dropLast.find? fun line => rtpmapTag.isPrefixOf line

/-- Behind the first tag `a=rtpmap:` and its blanks are one to three bytes and the name of the
format, and these bytes start with the number `n`: white space, a plus sign or none, the digits. -/
def MisreadAs (sdp : Bytes) (n : ℕ) : Prop :=
  ∃ p head tail, IsLeast {i | TagAt (searchedText sdp) rtpmapTag i} p ∧
    (sdp.drop (p + rtpmapTag.length)).dropWhile (· = 32) = head ++ (telephoneEvent ++ tail) ∧
    (1 ≤ head.length ∧ head.length ≤ 3) ∧ StartsWithNumber head n ∧ 1 ≤ n ∧ n ≤ 255

/-- The first `a=rtpmap:` line gives the payload type; or it is misread as the number that the first
line with a payload type gives; or it is not misread, and there is no line with a payload type. -/
def RtpmapReadable (sdp : Bytes) : Prop :=
  match firstRtpmap sdp with
  | none => ∀ line ∈ textLines sdp, eventType line = none
  | some line => (eventType line).isSome ∨
      (∃ n, MisreadAs sdp n ∧ (textLines sdp).findSome? eventType = some n) ∨
      (∀ n, ¬MisreadAs sdp n) ∧ ∀ line ∈ textLines sdp, eventType line = none

lemma buffer_searchedText (sdp : Bytes) :
    buffer sdp ((cstr sdp).length % 2 ^ 32) = searchedText sdp := by
  have hlen : (cstr sdp).length % 2 ^ 32 < 2 ^ 63 := by omega
  obtain ⟨behind, hbehind⟩ : cstr sdp <+: sdp := List.takeWhile_prefix _
  rw [buffer_of_lt hlen]
  calc sdp.take ((cstr sdp).length % 2 ^ 32)
      = (cstr sdp ++ behind).take ((cstr sdp).length % 2 ^ 32) := by rw [hbehind]
    _ = searchedText sdp := List.take_append_of_le_length (Nat.mod_le _ _)

lemma gettag_rtpmap (sdp : Bytes) :
    (gettag sdp ((cstr sdp).length % 2 ^ 32) rtpmapTag).map (slice sdp) =
      (firstRtpmap sdp).map (lineValue rtpmapTag) := by
  rw [map_slice_gettag (by decide) isEol_rtpmapTag, buffer_searchedText]
  rfl

/-- Where the value that `gettag` finds starts. -/
lemma gettag_rtpmap_position {v : ℕ × ℕ}
    (hv : gettag sdp ((cstr sdp).length % 2 ^ 32) rtpmapTag = some v) :
    ∃ p, IsLeast {i | TagAt (searchedText sdp) rtpmapTag i} p ∧
      sdp.drop v.1 = (sdp.drop (p + rtpmapTag.length)).dropWhile (· = 32) := by
  obtain ⟨p, hp, hvalue⟩ := (gettag_eq_some_iff (by decide) isEol_rtpmapTag).mp hv
  rw [buffer_searchedText] at hp hvalue
  obtain ⟨rest, hrest⟩ : searchedText sdp <+: sdp :=
    (buffer_searchedText sdp) ▸ buffer_prefix_self sdp _
  refine ⟨p, hp, ?_⟩
  unfold valueAt at hvalue
  split at hvalue
  · rename_i hin
    obtain rfl := Option.some.inj hvalue
    have hstart := @drop_valueStart (searchedText sdp) rtpmapTag p (by omega) rest
    rwa [hrest] at hstart
  · cases hvalue

/-- A first line is misread as the number that it is taken for. -/
lemma takenFor_iff_misreadAs (hfirst : firstRtpmap sdp = some line) :
    TakenFor sdp n ↔ MisreadAs sdp n := by
  have hmap := gettag_rtpmap sdp
  rw [hfirst, Option.map_some] at hmap
  obtain ⟨v, hv, -⟩ := Option.map_eq_some_iff.mp hmap
  obtain ⟨p, hp, hdrop⟩ := gettag_rtpmap_position hv
  constructor
  · rintro ⟨w, head, tail, hw, hs, hlength, hvalue, hrange⟩
    obtain rfl := Option.some.inj (hv.symm.trans hw)
    exact ⟨p, head, tail, hp, hdrop ▸ hs, hlength,
      (atol_eq_iff_of_pos (by omega) (by omega)).mp hvalue, hrange⟩
  · rintro ⟨q, head, tail, hq, hs, hlength, hvalue, hrange⟩
    obtain rfl := hp.unique hq
    exact ⟨v, head, tail, hv, hdrop.trans hs, hlength,
      (atol_eq_iff_of_pos (by omega) (by omega)).mpr hvalue, hrange⟩

/-- A line that gives a payload type is taken for it. -/
lemma takenFor_of_first (hfirst : firstRtpmap sdp = some line) (hline : eventType line = some n) :
    TakenFor sdp n := by
  obtain ⟨digits, rest, rfl, hdigits, hlength, hvalue, hrange⟩ := eventType_eq_some_iff.mp hline
  obtain ⟨d, ds, rfl⟩ := List.exists_cons_of_length_pos hlength.1
  have hd : isdigit d := hdigits d List.mem_cons_self
  have hvalueline : lineValue rtpmapTag (rtpmapTag ++ (d :: ds ++ (telephoneEvent ++ rest))) =
      d :: ds ++ (telephoneEvent ++ rest) := by
    exact lineValue_append _ (ne_blank_of_isdigit hd)
  have hmap := gettag_rtpmap sdp
  rw [hfirst, Option.map_some, hvalueline] at hmap
  obtain ⟨v, hv, hslice⟩ := Option.map_eq_some_iff.mp hmap
  obtain ⟨c, behind, hdrop, -⟩ := drop_of_gettag (by decide) isEol_rtpmapTag hv
  have hatol : atol (d :: ds) = n := by
    rw [atol_of_isdigit (s := d :: ds) hd, hvalue]
    omega
  refine ⟨v, d :: ds, rest ++ c :: behind, hv, ?_, hlength, hatol, hrange⟩
  rw [hdrop, hslice]
  simp only [List.append_assoc]

/-- Before the first `a=rtpmap:` line there is no payload type. -/
lemma firstEvent_of_first (hfirst : firstRtpmap sdp = some line)
    (hline : eventType line = some n) :
    (textLines sdp).findSome? eventType = some n := by
  obtain ⟨-, before, after, hlines, hbefore⟩ := List.find?_eq_some_iff_append.mp hfirst
  have hpre :
      (lines (searchedText sdp)).dropLast <+: textLines sdp := by
    have h := dropLast_lines_prefix ((cstr sdp).take ((cstr sdp).length % 2 ^ 32))
      ((cstr sdp).drop ((cstr sdp).length % 2 ^ 32))
    rwa [List.take_append_drop] at h
  obtain ⟨more, hmore⟩ := hpre
  have hnone : before.findSome? eventType = none := by
    rw [List.findSome?_eq_none_iff]
    intro l hl
    refine eventType_eq_none fun htag => ?_
    have hno := hbefore l hl
    rw [List.isPrefixOf_iff_prefix.mpr htag] at hno
    exact absurd hno (by decide)
  rw [← hmore, hlines, List.append_assoc, List.findSome?_append, hnone, Option.none_or,
    List.cons_append, List.findSome?_cons_of_isSome (by rw [hline]; rfl), hline]

/-- **The payload type of telephone events** is found, or found to be missing, if and only if the
first `a=rtpmap:` line gives it, or is not misread as another one. -/
theorem rtpmap_event_iff (sdp : Bytes) : FindsEvent sdp ↔ RtpmapReadable sdp := by
  rw [findsEvent_iff]
  unfold RtpmapReadable
  rcases hfirst : firstRtpmap sdp with _ | line
  · have hnone : ∀ n, ¬TakenFor sdp n := by
      rintro n ⟨v, -, -, hv, -⟩
      have hmap := gettag_rtpmap sdp
      rw [hfirst, hv] at hmap
      simp at hmap
    simp only [hnone, false_iff]
    rw [← Option.eq_none_iff_forall_ne_some, List.findSome?_eq_none_iff]
  · have hread : ∀ n, TakenFor sdp n ↔ MisreadAs sdp n := fun n => takenFor_iff_misreadAs hfirst
    constructor
    · intro h
      simp only [hread] at h
      right
      by_cases hmisread : ∃ n, MisreadAs sdp n
      · obtain ⟨n, hn⟩ := hmisread
        exact Or.inl ⟨n, hn, (h n).mp hn⟩
      · rw [not_exists] at hmisread
        refine Or.inr ⟨hmisread, ?_⟩
        rw [← List.findSome?_eq_none_iff, Option.eq_none_iff_forall_ne_some]
        exact fun n hn => hmisread n ((h n).mpr hn)
    · rintro (hsome | ⟨m, hm, hevent⟩ | ⟨hmisread, hnone⟩) n
      · obtain ⟨m, hm⟩ := Option.isSome_iff_exists.mp hsome
        have htaken := takenFor_of_first hfirst hm
        rw [firstEvent_of_first hfirst hm, Option.some.injEq]
        exact ⟨fun hn => htaken.unique hn, fun hmn => hmn ▸ htaken⟩
      · have htaken := (hread m).mpr hm
        rw [hevent, Option.some.injEq]
        exact ⟨fun hn => htaken.unique hn, fun hmn => hmn ▸ htaken⟩
      · rw [List.findSome?_eq_none_iff.mpr hnone]
        exact iff_of_false (fun hn => hmisread n ((hread n).mp hn)) (Option.some_ne_none n).symm

/-- The lines of a call with PCMU and telephone events. -/
def pcmuFirst : Bytes :=
  ascii "a=rtpmap:0 PCMU/8000\r\na=rtpmap:101 telephone-event/8000\r\n"

/-- The line of another codec hides the payload type. -/
theorem rtpmap_event_false : ¬∀ sdp, FindsEvent sdp := by
  intro h
  have hvalue := ((h pcmuFirst).1 101 (by decide)).mpr (by decide +kernel)
  exact absurd hvalue (by decide +kernel)

end PcapSipDump
