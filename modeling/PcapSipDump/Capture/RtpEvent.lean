import PcapSipDump.Capture.Branch

/-!
# The mode for DTMF

With `-R rtpevent` only the packets of a call with the payload type for telephone events are meant
to be dumped.  The program compares the whole second byte of the RTP header, as a signed number,
with this type.  The byte also holds the marker bit, which is set in the first packet of every
event, so these packets are lost (`rtpevent_saves_iff`).
-/

namespace PcapSipDump

open Lib Lib.CString

variable {o : Options} {host : Host}

/-- The payload type of an RTP packet: the second byte without the marker bit. -/
def payloadType (data : Bytes) : UInt8 := u8 data 1 &&& 0x7f

/-- The marker bit of an RTP packet. -/
def marker (data : Bytes) : Bool := 128 ≤ u8 data 1

lemma payloadType_of_marker_eq_false {data : Bytes} (h : marker data = false) :
    payloadType data = u8 data 1 := by
  have hlt : (u8 data 1).toNat < 128 := by
    simpa [marker, UInt8.le_iff_toNat_le] using h
  rw [← UInt8.toNat_inj, payloadType, UInt8.toNat_and]
  exact (Nat.and_two_pow_sub_one_eq_mod (u8 data 1).toNat 7).trans (Nat.mod_eq_of_lt hlt)

/-- The test of the two branches, in the words of RTP. -/
lemma savesPayload_iff (hmode : o.optRtpsave = .rtpEvent) (data : Bytes) (e : CalltableElement) :
    savesPayload o data e ↔ marker data = false ∧ payloadType data = e.rtpmapEvent := by
  have hmarker : marker data = false ↔ u8 data 1 < 128 := by
    rw [marker, decide_eq_false_iff_not, UInt8.not_le]
  rw [savesPayload, hmode]
  simp only [ne_eq, not_true_eq_false, decide_false, Bool.false_or, Bool.and_eq_true,
    decide_eq_true_eq]
  constructor
  · rintro ⟨htype, hlt⟩
    have hclear := hmarker.mpr hlt
    exact ⟨hclear, (payloadType_of_marker_eq_false hclear).trans htype⟩
  · rintro ⟨hclear, htype⟩
    exact ⟨(payloadType_of_marker_eq_false hclear).symm.trans htype, hmarker.mp hclear⟩

/-- **What the mode for DTMF keeps.**  In every state that the capture loop reaches, a packet that
the lookups attribute to an element with a file is dumped exactly if its payload type is that of
the element's events, unless it has this type and the marker bit. -/
theorem rtpevent_saves_iff (o : Options) (host : Host) (hmode : o.optRtpsave = .rtpEvent)
    (inputs : List Input) (p : Packet) (ip i : ℕ) (j : Fin maxIpPerCall) (f : Handle)
    (hfound : branch o p (afterPass ((loop o host).run o.start inputs) (.packet p)).world =
      .rtp ip (i, j))
    (hfile : ((afterPass ((loop o host).run o.start inputs) (.packet p)).world.slot i).fPcap =
      some f) :
    let s := (loop o host).run o.start inputs
    let event := ((afterPass s (.packet p)).world.slot i).rtpmapEvent
    let data := p.mem.drop (dataPos p.mem ip)
    (((loop o host).next s (.packet p)).world.written =
        s.world.written ++ [(.rtp i, f, p.record)] ↔ payloadType data = event) ↔
      ¬(marker data ∧ payloadType data = event) := by
  intro s event data
  have hdumps : inputDumps o host s (.packet p) =
      if savesPayload o data ((afterPass s (.packet p)).world.slot i) then
        [(.rtp i, f, p.record)] else [] := by
    rw [inputDumps, hfound, Branch.dumps, hfile]
    rfl
  have hdumped : ((loop o host).next s (.packet p)).world.written =
      s.world.written ++ [(.rtp i, f, p.record)] ↔
        marker data = false ∧ payloadType data = event := by
    rw [written_loop o host ((owns_run o host inputs).afterPass _).tableInv,
      List.append_cancel_left_eq, hdumps, ← savesPayload_iff hmode]
    split
    · exact iff_of_true rfl ‹_›
    · exact iff_of_false (by simp) ‹_›
  rw [hdumped]
  cases marker data <;> simp

/-- The mode for DTMF, with the settings of the small capture. -/
def Options.rtpevent : Options := { Options.raw with optRtpsave := .rtpEvent }

/-- An INVITE whose caller announces 10.0.0.1:4000; the type for events is the default one. -/
def dtmfCall : List Input := [.packet (.captured 1000 (invite "x"))]

/-- A telephone event, in a packet with the marker bit or without it. -/
def dtmfPacket (marker : Bool) : Packet :=
  .captured 1001 (ipv4Udp 2 0 [10, 0, 0, 9] [10, 0, 0, 1] 6000 4000
    [0x80, if marker then 0xe5 else 0x65, 0, 0, 0, 0, 0, 0, 0, 0, 0, 5])

/-- Both packets are attributed to the call. -/
lemma branch_dtmfPacket (marker : Bool) : branch Options.rtpevent (dtmfPacket marker) (afterPass
    ((loop Options.rtpevent Host.numbering).run Options.rtpevent.start dtmfCall)
    (.packet (dtmfPacket marker))).world = .rtp 0 (0, 0) := by
  cases marker with
  | false =>
    exact branch_of_rtpLookup (by decide +kernel) (by decide +kernel) (by decide +kernel)
      (by decide +kernel)
  | true =>
    exact branch_of_rtpLookup (by decide +kernel) (by decide +kernel) (by decide +kernel)
      (by decide +kernel)

theorem rtpevent_saves_unmarked :
    let s := (loop Options.rtpevent Host.numbering).run Options.rtpevent.start dtmfCall
    ((loop Options.rtpevent Host.numbering).next s (.packet (dtmfPacket false))).world.written =
      s.world.written ++ [(.rtp 0, 1, (dtmfPacket false).record)] := by
  have hiff := rtpevent_saves_iff Options.rtpevent Host.numbering rfl dtmfCall (dtmfPacket false)
    0 0 0 1 (branch_dtmfPacket false) (by decide +kernel)
  exact (hiff.mpr (by decide +kernel)).mpr (by decide +kernel)

/-- The first packet of an event is not dumped. -/
theorem rtpevent_saves_false :
    ¬∀ (o : Options) (host : Host), o.optRtpsave = .rtpEvent → ∀ (inputs : List Input) (p : Packet)
      (ip i : ℕ) (j : Fin maxIpPerCall) (f : Handle),
      branch o p (afterPass ((loop o host).run o.start inputs) (.packet p)).world = .rtp ip (i, j) →
      ((afterPass ((loop o host).run o.start inputs) (.packet p)).world.slot i).fPcap = some f →
      let s := (loop o host).run o.start inputs
      (((loop o host).next s (.packet p)).world.written =
          s.world.written ++ [(.rtp i, f, p.record)] ↔
        payloadType (p.mem.drop (dataPos p.mem ip)) =
          ((afterPass s (.packet p)).world.slot i).rtpmapEvent) := by
  intro h
  have hdumped := (h Options.rtpevent Host.numbering rfl dtmfCall (dtmfPacket true) 0 0 0 1
    (branch_dtmfPacket true) (by decide +kernel)).mpr (by decide +kernel)
  exact absurd hdumped (by decide +kernel)

end PcapSipDump
