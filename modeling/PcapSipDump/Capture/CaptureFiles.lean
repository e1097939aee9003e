import PcapSipDump.Capture.Events
import PcapSipDump.Capture.FilePaths
import PcapSipDump.Capture.Idle

/-!
# What the dumpers are given

A run dumps packets and nothing else: in the order of capture, each packet once at most and to one
dumper at most, with the bytes that were captured but for the NUL that the SIP branch puts behind
the payload (`written_from_packets`).  So what a dumper is given is a part of the capture
(`dumpedTo_sublist`).  It begins with the message for which the dumper was opened, and has nothing
that was captured before (`dumper_begins_with_opener`).

This is about dumpers and not about files: two dumpers with the same path write over each other.
-/

namespace PcapSipDump

open Lib Lib.CString

variable {o : Options} {host : Host} {w : World} {p : Packet} {s : State} {a : Input}

/-- What `pcap_dump` is given for a packet.  The SIP branch has terminated the payload. -/
def Via.record (p : Packet) : Via → Record
  | .sip _ => p.terminate.record
  | .rtp _ | .ipfrag _ => p.record

/-- The packets of an input. -/
def Input.packets : Input → List Packet
  | .packet p => [p]
  | .cleanup _ => []

/-- The dump is one of the packet. -/
def DumpOf (d : Via × Handle × Record) (p : Packet) : Prop := d.2.2 = d.1.record p

/-- What a dumper has been given, in order.  It is what is in its file if no other dumper has had
the same path. -/
def World.dumpedTo (w : World) (f : Handle) : List Record :=
  (w.written.filter fun d => d.2.1 = f).map fun d => d.2.2

/-! ### One input -/

lemma sublistForall₂_toList (via : Via) (p : Packet) (file : Option Handle) :
    List.SublistForall₂ DumpOf (file.toList.map fun f => (via, f, via.record p)) [p] := by
  cases file with
  | none => exact List.SublistForall₂.nil
  | some f => exact List.SublistForall₂.cons rfl List.SublistForall₂.nil

/-- A branch dumps its packet, or nothing. -/
lemma sublistForall₂_dumps (o : Options) (host : Host) (p : Packet) (s : State) (b : Branch) :
    List.SublistForall₂ DumpOf (b.dumps o host p s) [p] := by
  cases b with
  | skip => exact List.SublistForall₂.nil
  | fragment aai last => exact sublistForall₂_toList (.ipfrag aai) p _
  | rtp ip g =>
    simp only [Branch.dumps]
    split
    · exact sublistForall₂_toList (.rtp g.1) p _
    · exact List.SublistForall₂.nil
  | sip ip msg =>
    simp only [Branch.dumps]
    rcases findOrAdd o host msg p.ts s with ⟨_ | i, s'⟩
    · exact List.SublistForall₂.nil
    · exact sublistForall₂_toList (.sip i) p _

lemma sublistForall₂_inputDumps (o : Options) (host : Host) (s : State) (a : Input) :
    List.SublistForall₂ DumpOf (inputDumps o host s a) a.packets := by
  cases a with
  | packet p => exact sublistForall₂_dumps o host p _ _
  | cleanup currtime => exact List.SublistForall₂.nil

/-- Where no packet is shorter on the wire than captured, the NUL is put behind the capture. -/
lemma Packet.record_terminate (h : p.caplen ≤ p.len.toNat) : p.terminate.record = p.record := by
  have hbytes : (p.mem.set (min p.len.toNat p.caplen) 0).take p.caplen = p.bytes := by
    rw [Nat.min_eq_right h, List.take_set_of_le le_rfl]
    exact List.take_left
  simp only [Packet.record, Packet.terminate, hbytes]

/-! ### Runs -/

/-- What a run has written is what its inputs have dumped. -/
lemma written_run (o : Options) (host : Host) {s : State} (hs : Owns s.world)
    (inputs : List Input) : ((loop o host).run s inputs).world.written =
      s.world.written ++ (loop o host).collect (inputDumps o host) s inputs :=
  Machine.log_run (M := loop o host) (L := fun s : State => s.world.written)
    (I := fun s : State => Owns s.world) (fun _ a hs => hs.loop a)
    (fun _ a hs => written_loop o host (hs.afterPass a).tableInv) hs inputs

/-- **What is written.**  A run dumps its packets in the order in which they were captured, each of
them once at most over all files, as it was captured or with its payload terminated. -/
theorem written_from_packets (o : Options) (host : Host) (inputs : List Input) :
    List.SublistForall₂ DumpOf ((loop o host).run o.start inputs).world.written
      (inputs.flatMap Input.packets) := by
  rw [written_run o host (owns_start o)]
  exact Machine.sublistForall₂_collect (M := loop o host) (I := fun _ => True)
    (fun _ _ _ => trivial) (fun s a _ => sublistForall₂_inputDumps o host s a) trivial inputs

/-- **What is dumped is a part of the capture.**  Where no packet has more bytes captured than it
had on the wire, the records of all dumpers together, and so those of each dumper, are records of
the capture in their order. -/
theorem dumpedTo_sublist (o : Options) (host : Host) (inputs : List Input)
    (hlen : ∀ p, .packet p ∈ inputs → p.caplen ≤ p.len.toNat) :
    let w := ((loop o host).run o.start inputs).world
    (w.written.map fun d => d.2.2).Sublist ((inputs.flatMap Input.packets).map Packet.record) ∧
      ∀ f, (w.dumpedTo f).Sublist ((inputs.flatMap Input.packets).map Packet.record) := by
  intro w
  have hmem : ∀ p ∈ inputs.flatMap Input.packets, .packet p ∈ inputs := by
    intro p hp
    obtain ⟨a, ha, hpa⟩ := List.mem_flatMap.mp hp
    cases a with
    | packet q =>
      obtain rfl := List.mem_singleton.mp hpa
      exact ha
    | cleanup currtime => exact absurd hpa List.not_mem_nil
  have hall : (w.written.map fun d => d.2.2).Sublist
      ((inputs.flatMap Input.packets).map Packet.record) := by
    refine sublist_map_of_sublistForall₂ (written_from_packets o host inputs) ?_
    rintro ⟨via, f, r⟩ p hp hr
    have hrecord := p.record_terminate (hlen p (hmem p hp))
    obtain rfl : r = via.record p := hr
    cases via with
    | sip i => exact hrecord
    | _ => rfl
  exact ⟨hall, fun f => (List.filter_sublist.map _).trans hall⟩

/-- The dumper of a call whose INVITE and one media packet are captured. -/
theorem dumpedTo_sublist_recordedCall :
    let inputs : List Input := [.packet (.captured 1000 (invite "x")), .packet (.captured 1001 []),
      .packet (.captured 1002 (media 4000 1))]
    let w := ((loop Options.raw Host.numbering).run Options.raw.start inputs).world
    w.dumpedTo 1 = [(Packet.captured 1000 (invite "x")).record,
        (Packet.captured 1002 (media 4000 1)).record] ∧
      (w.dumpedTo 1).Sublist ((inputs.flatMap Input.packets).map Packet.record) := by
  intro inputs w
  refine ⟨by decide +kernel, (dumpedTo_sublist Options.raw Host.numbering inputs ?_).2 1⟩
  intro p hp
  simp only [inputs, List.mem_cons, Input.packet.injEq, List.not_mem_nil, or_false] at hp
  rcases hp with rfl | rfl | rfl <;> decide +kernel

/-! ### The first record of a dumper -/

/-- The message of the packet adds its call, and passes the filters for recording it in the file
with the path `fn`. -/
def OpensPath (o : Options) (host : Host) (callId fn : Bytes) (s : State) (p : Packet) : Prop :=
  ∃ ip msg, branch o p (afterPass s (.packet p)).world = .sip ip msg ∧ msg.callId = some callId ∧
    (afterPass s (.packet p)).world.ct.findByCallId callId = none ∧ numberFilterMatched o msg ∧
    o.methodFilter msg.method ∧ fn = fileName o host msg p.ts

lemma not_mem_dumpCalls {via : Via} {f : Handle} {r : Record} {flushes : List Bool}
    {callId fn : Bytes} {g : Option Handle} :
    .dumpOpen callId fn g ∉ dumpCalls via f r flushes := by
  intro h
  rcases List.mem_cons.mp h with h | h
  · cases h
  · obtain ⟨_, -, h⟩ := List.mem_map.mp h
    cases h

/-- Only a message that adds its call opens a file. -/
lemma opens_of_mem_findOrAddCalls {msg : SipMessage} {ts : ℤ} {callId fn : Bytes}
    {f : Option Handle} (h : .dumpOpen callId fn f ∈ findOrAddCalls o host msg ts s) :
    msg.callId = some callId ∧ s.world.ct.findByCallId callId = none ∧
      numberFilterMatched o msg ∧ o.methodFilter msg.method ∧ fn = fileName o host msg ts ∧
      ∃ es, f = host.dumpOpen (s.world.log ++ es) fn := by
  unfold findOrAddCalls at h
  rcases hid : msg.callId with _ | callId' <;> simp only [hid] at h
  · exact absurd h List.not_mem_nil
  rcases hf : s.world.ct.findByCallId callId' with _ | i <;> simp only [hf] at h
  · by_cases hn : numberFilterMatched o msg
    · rw [if_pos hn] at h
      rcases List.mem_append.mp h with h | h
      · cases List.mem_singleton.mp h
      unfold newCallCalls at h
      split at h
      · rename_i hm
        rcases List.mem_append.mp h with h | h
        · obtain ⟨_, -, h⟩ := Option.map_eq_some_iff.mp (Option.mem_toList.mp h)
          cases h
        · obtain ⟨rfl, rfl, rfl⟩ := IoEvent.dumpOpen.inj (List.mem_singleton.mp h)
          refine ⟨rfl, hf, hn, hm.1, rfl, ?_⟩
          exact ⟨_ ++ _, by rw [← List.append_assoc]; rfl⟩
      · exact absurd h List.not_mem_nil
    · rw [if_neg hn] at h
      exact absurd h List.not_mem_nil
  · exact absurd h List.not_mem_nil

/-- A file is opened for a packet whose message adds its call, and the packet is dumped into it. -/
lemma opens_of_mem_inputCalls (hs : Owns s.world) {callId fn : Bytes} {f : Handle}
    (h : .dumpOpen callId fn (some f) ∈ inputCalls o host s a) :
    ∃ p, a = .packet p ∧ OpensPath o host callId fn s p ∧ f ∉ pcapFiles.opened s.world.log ∧
      ∃ i, inputDumps o host s a = [(.sip i, f, p.terminate.record)] := by
  have hw := (hs.afterPass a).tableInv
  have hpass : .dumpOpen callId fn (some f) ∉ passCalls s a := by
    intro h
    unfold passCalls at h
    split at h
    · exact absurd h List.not_mem_nil
    · rcases mem_doCleanup h with ⟨g, h | h⟩ | ⟨path, h⟩ | ⟨c, h⟩ <;> cases h
  have hpacket := (List.mem_append.mp h).resolve_left hpass
  cases a with
  | cleanup currtime => exact absurd hpacket List.not_mem_nil
  | packet p =>
    obtain ⟨t, ht⟩ : ∃ t, t = afterPass s (.packet p) := ⟨_, rfl⟩
    simp only [packetCalls, inputDumps, OpensPath, ← ht] at hpacket hw ⊢
    rcases hb : branch o p t.world with _ | ⟨aai, last⟩ | ⟨ip, g⟩ | ⟨ip, msg⟩ <;>
      simp only [hb, Branch.calls] at hpacket
    · exact absurd hpacket List.not_mem_nil
    · obtain ⟨_, -, h⟩ := List.mem_flatMap.mp hpacket
      exact absurd h not_mem_dumpCalls
    · split at hpacket
      · obtain ⟨_, -, h⟩ := List.mem_flatMap.mp hpacket
        exact absurd h not_mem_dumpCalls
      · exact absurd hpacket List.not_mem_nil
    · have hfind : .dumpOpen callId fn (some f) ∈ findOrAddCalls o host msg p.ts t := by
        refine (List.mem_append.mp hpacket).resolve_right fun h => ?_
        split at h
        · obtain ⟨_, -, h⟩ := List.mem_flatMap.mp h
          exact absurd h not_mem_dumpCalls
        · exact absurd h List.not_mem_nil
      obtain ⟨hid, hnone, hn, hm, hfn, es, hfile⟩ := opens_of_mem_findOrAddCalls hfind
      have hfresh : f ∉ pcapFiles.opened t.world.log := host.not_mem_opened hfile.symm
      have he := findOrAdd_added hid hnone hn host p.ts
      obtain ⟨opened, hjoin, hopened⟩ := dumpOpen_added hw.unusedZero he
      -- the opening is a new one, so the element has the file
      have hlog : .dumpOpen callId fn (some f) ∈
          (findOrAdd o host msg p.ts t).2.world.log := by
        rw [log_findOrAdd]
        exact List.mem_append_right _ hfind
      have hold : .dumpOpen callId fn (some f) ∉ t.world.log := fun h =>
        hfresh (pcapFiles.mem_opened.mpr ⟨_, h, rfl⟩)
      obtain ⟨-, -, hsome⟩ := ((hopened _ _ _).mp hlog).resolve_left hold
      rw [hsome] at hjoin
      refine ⟨p, rfl, ?_, fun ho => hfresh ?_, t.world.ct.addIdx, ?_⟩
      · rw [ht] at hb hnone
        exact ⟨ip, msg, hb, hid, hnone, hn, hm, hfn⟩
      · rw [ht, log_afterPass, Usage.opened_append]
        exact List.mem_append_left _ ho
      · rw [he] at hjoin
        simp only [Branch.dumps, he]
        exact congrArg (fun file : Option Handle => file.toList.map fun f =>
          (Via.sip t.world.ct.addIdx, f, p.terminate.record)) hjoin

/-- A dumper has been given nothing before it is opened. -/
lemma dumpedTo_eq_nil (h : KnownFiles w) {f : Handle} (hf : f ∉ pcapFiles.opened w.log) :
    w.dumpedTo f = [] := by
  rw [World.dumpedTo, List.map_eq_nil_iff, List.filter_eq_nil_iff]
  rintro ⟨via, g, r⟩ hd hg
  obtain rfl : g = f := of_decide_eq_true hg
  exact hf (h.dumped via g r (World.mem_written.mp hd))

lemma knownFiles_run (o : Options) (host : Host) (inputs : List Input) :
    KnownFiles ((loop o host).run o.start inputs).world := by
  refine (Machine.run_invariant (M := loop o host)
    (P := fun s : State => Owns s.world ∧ KnownFiles s.world) ?_ ⟨owns_start o, ?_⟩ inputs).2
  · rintro s a ⟨hs, hk⟩
    have hpass : KnownFiles (afterPass s a).world := afterPass_invariant hk fun currtime _ =>
      hk.next hs host o.libbsd (.cleanup currtime)
    refine ⟨hs.loop a, (next_invariant (P := fun w => Owns w ∧ KnownFiles w)
      (fun _ hw => hw.1.tableInv) ?_ ⟨hs.afterPass a, hpass⟩).2⟩
    exact fun w op _ hop _ hw => ⟨hw.1.next hop, hw.2.next hw.1 host o.libbsd op⟩
  · exact ⟨fun _ _ _ h => absurd h List.not_mem_nil, fun _ _ h => by
      simp [Options.start, Calltable.create] at h⟩

/-- **A dumper begins with the message that opened it.**  A dumper that a run has opened was opened
for a packet of the run, whose message added the call and passed the filters, and under the path of
this message.  The first record that it is given is this packet, and the others are packets captured
after it. -/
theorem dumper_begins_with_opener (o : Options) (host : Host) (inputs : List Input)
    (callId fn : Bytes) (f : Handle)
    (h : .dumpOpen callId fn (some f) ∈ ((loop o host).run o.start inputs).world.log) :
    ∃ pre p post, inputs = pre ++ .packet p :: post ∧
      OpensPath o host callId fn ((loop o host).run o.start pre) p ∧
      ∃ rest, ((loop o host).run o.start inputs).world.dumpedTo f = p.terminate.record :: rest ∧
        List.SublistForall₂ (fun r q => r = q.record ∨ r = q.terminate.record) rest
          (post.flatMap Input.packets) := by
  obtain ⟨pre, a, post, rfl, hcall⟩ := mem_log_run.mp h
  obtain ⟨s, hs⟩ : ∃ s, s = (loop o host).run o.start pre := ⟨_, rfl⟩
  have howns : Owns s.world := by
    rw [hs]
    exact owns_run o host pre
  rw [← hs] at hcall
  obtain ⟨p, rfl, hopens, hfresh, i, hdumps⟩ := opens_of_mem_inputCalls howns hcall
  refine ⟨pre, p, post, rfl, hs ▸ hopens, ?_⟩
  -- what the run has written, cut at the packet
  have hwritten : ((loop o host).run o.start (pre ++ .packet p :: post)).world.written =
      s.world.written ++ (.sip i, f, p.terminate.record) ::
        (loop o host).collect (inputDumps o host) ((loop o host).next s (.packet p)) post := by
    rw [Machine.run_append, ← hs, written_run o host howns, Machine.collect_cons, hdumps]
    rfl
  have hbefore : s.world.dumpedTo f = [] := by
    refine dumpedTo_eq_nil ?_ hfresh
    rw [hs]
    exact knownFiles_run o host pre
  refine ⟨(((loop o host).collect (inputDumps o host) ((loop o host).next s (.packet p))
    post).filter fun d => d.2.1 = f).map fun d => d.2.2, ?_, ?_⟩
  · rw [World.dumpedTo] at hbefore ⊢
    rw [hwritten, List.filter_append, List.map_append, hbefore, List.nil_append,
      List.filter_cons_of_pos (by simp), List.map_cons]
  · have hrest : List.SublistForall₂ DumpOf ((loop o host).collect (inputDumps o host)
        ((loop o host).next s (.packet p)) post) (post.flatMap Input.packets) :=
      Machine.sublistForall₂_collect (I := fun _ => True) (fun _ _ _ => trivial)
        (fun s a _ => sublistForall₂_inputDumps o host s a) trivial post
    refine sublistForall₂_filter_map hrest (fun d q hd => ?_) _
    rcases d with ⟨via, g, r⟩
    obtain rfl : r = via.record q := hd
    cases via with
    | sip i => exact Or.inr rfl
    | _ => exact Or.inl rfl

/-- The dumper of the second one of two calls. -/
theorem dumper_begins_with_opener_second :
    let inputs : List Input := [.packet (.captured 1000 (invite "x")),
      .packet (.captured 1001 (invite "y")), .packet (.captured 1002 (media 4000 1))]
    ∃ pre p post, inputs = pre ++ .packet p :: post ∧
      OpensPath Options.raw Host.numbering (ascii "y") (ascii "y.pcap")
        ((loop Options.raw Host.numbering).run Options.raw.start pre) p ∧
      ∃ rest, ((loop Options.raw Host.numbering).run Options.raw.start inputs).world.dumpedTo 2 =
          p.terminate.record :: rest ∧
        List.SublistForall₂ (fun r q => r = q.record ∨ r = q.terminate.record) rest
          (post.flatMap Input.packets) := by
  intro inputs
  exact dumper_begins_with_opener Options.raw Host.numbering inputs (ascii "y") (ascii "y.pcap") 2
    (by decide +kernel)

end PcapSipDump
