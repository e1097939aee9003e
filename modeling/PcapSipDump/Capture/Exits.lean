import PcapSipDump.Capture.Ownership

/-!
# The last cleanup

The program ends with a cleanup pass at a sentinel time: `do_cleanup(0)` in the handlers of
SIGINT and SIGTERM, `do_cleanup(INT32_MAX)` after the last packet.  The pass uses the ordinary
expiry test, so it finishes the calls that the test takes for expired, and the two sentinels
are not beyond every time stamp: `finishes_iff` says for which tables each of them finishes
every call.  With a limit that is not negative, `do_cleanup(0)` finishes none.
-/

namespace PcapSipDump

open Lib Lib.CString Lib.SlotTable

variable {o : Options} {host : Host} {w : World}

/-- `INT32_MAX` -/
def int32Max : ℤ := 2147483647

/-- The pass leaves no open file in the table, and every file that is open is flushed and closed
exactly once and then unlinked or given to the close triggers. -/
structure FinishesAll (w : World) (currtime : ℤ) : Prop where
  none_left : ∀ i, ((w.cleanup currtime).slot i).isUsed →
    ((w.cleanup currtime).slot i).fPcap = none
  finishes : ∀ f, pcapFiles.Live w.log f → ∃ i before after, (w.slot i).fPcap = some f ∧
    (w.ct.doCleanup currtime).2 = before ++ [.flush f, .close f,
      (w.slot i).finishEvent w.ct.eraseNonT38] ++ after ∧
    ∀ event ∈ before ++ after, event ≠ .flush f ∧ event ≠ .close f

/-- A pass finishes every call exactly when every call with a file is due. -/
lemma Owns.finishesAll_iff (h : Owns w) (currtime : ℤ) :
    FinishesAll w currtime ↔
      ∀ i, (w.slot i).isUsed → (w.slot i).fPcap ≠ none → w.ct.due currtime (w.slot i) := by
  have hslot := w.ct.slot_doCleanup currtime
  constructor
  · intro hfin i hu hf
    by_contra hd
    have hsame : (w.cleanup currtime).slot i = w.slot i := (hslot i).trans (if_neg hd)
    have hnone := hfin.none_left i
    rw [hsame] at hnone
    exact hf (hnone hu)
  · intro hdue
    refine ⟨fun i hu => ?_, fun f hlive => ?_⟩
    · by_contra hf
      obtain ⟨hd, hsame⟩ := w.slot_of_used_cleanup hu
      rw [hsame] at hu hf
      exact hd (hdue i hu hf)
    · obtain ⟨i, hu, hf⟩ := (h.live_iff f).mp hlive
      have hd : w.ct.due currtime (w.slot i) := hdue i hu (by simp [hf])
      obtain ⟨before, after, hevents, hrest⟩ := doCleanup_finishes h hd hf
      exact ⟨i, before, after, hf, hevents, hrest⟩

/-- The used elements have capture times of the pcap format. -/
def TimesInRange (w : World) : Prop :=
  ∀ i, (w.slot i).isUsed →
    0 ≤ (w.slot i).firstPacketTime ∧ (w.slot i).firstPacketTime < 2 ^ 32 ∧
      0 ≤ (w.slot i).lastPacketTime ∧ (w.slot i).lastPacketTime < 2 ^ 32

/-- **When the last cleanup finishes every call.**  From a table that the capture loop reaches
with capture times in range, `do_cleanup(0)` finishes every call exactly when the calls with an
open file have started before the negated limit of `-T`; `do_cleanup(INT32_MAX)` exactly when
they have been idle for 300 seconds by 2^31-1, or have exceeded the limit by then. -/
theorem finishes_iff (o : Options) (host : Host) (w : World) (h : Visits o host w)
    (htimes : TimesInRange w) :
    (FinishesAll w 0 ↔ ∀ i, (w.slot i).isUsed → (w.slot i).fPcap ≠ none →
        (w.slot i).firstPacketTime < -w.ct.optAbsoluteTimeout) ∧
      (FinishesAll w int32Max ↔ ∀ i, (w.slot i).isUsed → (w.slot i).fPcap ≠ none →
        (w.slot i).lastPacketTime < 2147483347 ∨
          (w.slot i).firstPacketTime < 2147483647 - w.ct.optAbsoluteTimeout) := by
  have hdue : ∀ currtime i, (w.slot i).isUsed → (w.ct.due currtime (w.slot i) ↔
      currtime - (w.slot i).lastPacketTime > 300 ∨
        currtime - (w.slot i).firstPacketTime > w.ct.optAbsoluteTimeout) := by
    intro currtime i hu
    simp [CalltableElement.expired, hu]
  constructor
  · rw [h.owns.finishesAll_iff]
    refine forall_congr' fun i => forall_congr' fun hu => forall_congr' fun _ => ?_
    obtain ⟨-, -, hlast, -⟩ := htimes i hu
    rw [hdue 0 i hu]
    omega
  · rw [h.owns.finishesAll_iff]
    refine forall_congr' fun i => forall_congr' fun hu => forall_congr' fun _ => ?_
    rw [hdue int32Max i hu, int32Max]
    omega

/-- A call that was recorded at second 1000 is finished after the last packet. -/
theorem finishes_recordedCall :
    FinishesAll ((loop Options.raw Host.numbering).run Options.raw.start
      [.packet (.captured 1000 (invite "x"))]).world int32Max := by
  have hvisits : Visits Options.raw Host.numbering ((loop Options.raw Host.numbering).run
      Options.raw.start [.packet (.captured 1000 (invite "x"))]).world := ⟨_, Or.inl rfl⟩
  -- the call is the only one
  have hfirst : ∀ i, (((loop Options.raw Host.numbering).run Options.raw.start
      [.packet (.captured 1000 (invite "x"))]).world.slot i).isUsed → i = 0 := by
    intro i hu
    have hlen : ((loop Options.raw Host.numbering).run Options.raw.start
        [.packet (.captured 1000 (invite "x"))]).world.ct.table.length = 1 := by decide +kernel
    have hi := Calltable.lt_length_of_used hu
    omega
  refine (finishes_iff _ _ _ hvisits fun i hu => ?_).2.mpr fun i hu _ => Or.inl ?_
  · obtain rfl := hfirst i hu
    decide +kernel
  · obtain rfl := hfirst i hu
    decide +kernel

/-- A call with an open file survives `do_cleanup(0)`; a call of the last seconds before 2038
survives `do_cleanup(INT32_MAX)`. -/
theorem finishes_false :
    let w (ts : ℤ) := ((loop Options.raw Host.numbering).run Options.raw.start
      [.packet (.captured ts (invite "x"))]).world
    (((w 1000).cleanup 0).slot 0).isUsed ∧ (((w 1000).cleanup 0).slot 0).fPcap = some 1 ∧
      (((w 2147483600).cleanup int32Max).slot 0).isUsed ∧
      (((w 2147483600).cleanup int32Max).slot 0).fPcap = some 1 := by
  decide +kernel

end PcapSipDump
