import PcapSipDump.Capture.ArchiveRefinement
import PcapSipDump.Capture.CaptureFiles

/-!
# Why a packet is dumped for a call

Every record that the dumper of a call is given has one of three reasons: the packet is a message
with the Call-ID of the call; or its destination or its source is a flow that a message of the call
has announced; or it is a later fragment with the fragment key of a packet that begins a datagram
with a message of the call (`Belongs`).  The key is all that is compared, so the datagram may be
another one of the same key.  The archive keeps the reasons (`Provenance.step`), so they hold of the
dumpers of the capture loop (`dumpedTo_belong`).
-/

namespace PcapSipDump

open Lib Lib.CString

variable {o : Options} {host : Host} {p : Packet} {inputs : List Input} {A B : Archive}

/-- The message in a packet. -/
def Reading.message : Reading → Option SipMessage
  | .payload _ _ _ message _ => message
  | _ => none

/-- The flows that a packet is looked up by. -/
def Reading.flows : Reading → List IpPort
  | .payload flows _ _ _ _ => flows
  | _ => []

/-- The datagram that a packet begins. -/
def Reading.datagram : Reading → Option AddrAddrId
  | .payload _ _ _ _ datagram => datagram
  | _ => none

/-- The packet has a message of the call with the key. -/
def MessageOf (o : Options) (k : CallKey) (p : Packet) (msg : SipMessage) : Prop :=
  (reading o p).message = some msg ∧ msg.callId.map keyOf = some k

/-- Why the dumper of a call is given this record of a packet. -/
inductive Belongs (o : Options) (inputs : List Input) (k : CallKey) (p : Packet) : Record → Prop
  where
  /-- It is a message of the call. -/
  | message {msg : SipMessage} (hmsg : MessageOf o k p msg) :
      Belongs o inputs k p p.terminate.record
  /-- It is of a flow that a message of the call has announced. -/
  | media {q : IpPort} {p' : Packet} {msg : SipMessage} (hq : q ∈ (reading o p).flows)
      (hp' : .packet p' ∈ inputs) (hmsg : MessageOf o k p' msg)
      (hannounced : .addIpPort q.1 q.2 ∈ msg.writes) : Belongs o inputs k p p.record
  /-- It has the fragment key of a message of the call that begins a datagram. -/
  | fragment {aai : AddrAddrId} {last : Bool} {p' : Packet} {msg : SipMessage}
      (hr : reading o p = .fragment aai last) (hp' : .packet p' ∈ inputs)
      (hmsg : MessageOf o k p' msg) (hbegun : (reading o p').datagram = some aai) :
      Belongs o inputs k p p.record

lemma Belongs.mono {inputs' : List Input} (h : inputs ⊆ inputs') {k : CallKey} {r : Record}
    (hb : Belongs o inputs k p r) : Belongs o inputs' k p r := by
  cases hb with
  | message hmsg => exact .message hmsg
  | media hq hp' hmsg hannounced => exact .media hq (h hp') hmsg hannounced
  | fragment hr hp' hmsg hbegun => exact .fragment hr (h hp') hmsg hbegun

/-! ### In the archive -/

/-- What the archive knows comes from the inputs. -/
structure Provenance (o : Options) (inputs : List Input) (A : Archive) : Prop where
  messages : ∀ k c, A.calls k = some c → ∀ msg ∈ c.messages,
    ∃ p, .packet p ∈ inputs ∧ MessageOf o k p msg
  file : ∀ k c, A.calls k = some c → ∀ f, c.file = some f → (k, f) ∈ A.opened
  datagrams : ∀ aai f, A.datagrams aai = some f → ∃ k, (k, f) ∈ A.opened ∧
    ∃ p msg, .packet p ∈ inputs ∧ MessageOf o k p msg ∧ (reading o p).datagram = some aai
  written : ∀ f r, (f, r) ∈ A.written → ∃ k, (k, f) ∈ A.opened ∧
    ∃ p, .packet p ∈ inputs ∧ Belongs o inputs k p r

lemma Provenance.start (o : Options) : Provenance o [] {} where
  messages _ _ hc := nomatch hc
  file _ _ hc := nomatch hc
  datagrams _ _ hf := nomatch hf
  written _ _ hw := absurd hw List.not_mem_nil

lemma Provenance.mono (h : Provenance o inputs A) {inputs' : List Input}
    (hsub : inputs ⊆ inputs') : Provenance o inputs' A where
  messages k c hc msg hmsg := by
    obtain ⟨p, hp, hm⟩ := h.messages k c hc msg hmsg
    exact ⟨p, hsub hp, hm⟩
  file := h.file
  datagrams aai f hf := by
    obtain ⟨k, hk, p, msg, hp, hm⟩ := h.datagrams aai f hf
    exact ⟨k, hk, p, msg, hsub hp, hm⟩
  written f r hw := by
    obtain ⟨k, hk, p, hp, hb⟩ := h.written f r hw
    exact ⟨k, hk, p, hsub hp, hb.mono hsub⟩

lemma Provenance.expire (h : Provenance o inputs A) (T : ℤ) :
    Provenance o inputs (A.expire o T) where
  messages k c hc := h.messages k c (Option.filter_eq_some_iff.mp hc).1
  file k c hc := h.file k c (Option.filter_eq_some_iff.mp hc).1
  datagrams := h.datagrams
  written := h.written

/-- What is written to a file of a call of which the packet is a part. -/
lemma Provenance.write (h : Provenance o inputs A) {file : Option Handle} {r : Record} {k : CallKey}
    (hk : ∀ f, file = some f → (k, f) ∈ A.opened) (hp : .packet p ∈ inputs)
    (hb : ∀ f, file = some f → Belongs o inputs k p r) : Provenance o inputs (A.write file r) where
  messages := h.messages
  file := h.file
  datagrams := h.datagrams
  written f r' hw := by
    rcases List.mem_append.mp hw with hold | hnew
    · exact h.written f r' hold
    · obtain ⟨g, hg, heq⟩ := List.mem_map.mp hnew
      obtain ⟨rfl, rfl⟩ := Prod.mk.inj heq
      have hfile := Option.mem_toList.mp hg
      exact ⟨k, hk g hfile, p, hp, hb g hfile⟩

lemma Provenance.update (h : Provenance o inputs A) {k : CallKey} {c : Call}
    (hmessages : ∀ msg ∈ c.messages, ∃ p, .packet p ∈ inputs ∧ MessageOf o k p msg)
    (hfile : ∀ f, c.file = some f → (k, f) ∈ A.opened) :
    Provenance o inputs (A.update k c) := by
  have hcall : ∀ k' c', (A.update k c).calls k' = some c' →
      (k' = k ∧ c' = c) ∨ A.calls k' = some c' := by
    intro k' c' hc'
    have hupdate : Function.update A.calls k (some c) k' = some c' := hc'
    rw [Function.update_apply] at hupdate
    split at hupdate
    · exact Or.inl ⟨‹_›, (Option.some.inj hupdate).symm⟩
    · exact Or.inr hupdate
  refine ⟨fun k' c' hc' => ?_, fun k' c' hc' => ?_, h.datagrams, h.written⟩
  · rcases hcall k' c' hc' with ⟨rfl, rfl⟩ | hold
    · exact hmessages
    · exact h.messages k' c' hold
  · rcases hcall k' c' hc' with ⟨rfl, rfl⟩ | hold
    · exact hfile
    · exact h.file k' c' hold

/-- A message of a call in a packet. -/
lemma Provenance.tell (h : Provenance o inputs A) {k : CallKey} {c : Call} {msg : SipMessage}
    (hmessages : ∀ msg ∈ c.messages, ∃ p, .packet p ∈ inputs ∧ MessageOf o k p msg)
    (hfile : ∀ f, c.file = some f → (k, f) ∈ A.opened) (hp : .packet p ∈ inputs)
    (hmsg : MessageOf o k p msg) {datagram : Option AddrAddrId}
    (hdatagram : (reading o p).datagram = datagram) :
    Provenance o inputs (A.tell k c p datagram) := by
  have hwrite : Provenance o inputs ((A.update k c).write c.file p.terminate.record) :=
    (h.update hmessages hfile).write hfile hp fun _ _ => .message hmsg
  cases datagram with
  | none => exact hwrite
  | some aai =>
    refine ⟨hwrite.messages, hwrite.file, fun aai' f hf => ?_, hwrite.written⟩
    have hupdate : Function.update A.datagrams aai c.file aai' = some f := hf
    rw [Function.update_apply] at hupdate
    split at hupdate
    · rename_i heq
      exact ⟨k, hfile f hupdate, p, msg, hp, hmsg, heq ▸ hdatagram⟩
    · exact h.datagrams aai' f hupdate

lemma Provenance.enrol (h : Provenance o inputs A) (k : CallKey) (file : Option Handle)
    (msg : SipMessage) : Provenance o inputs (A.enrol o k file msg) where
  messages := h.messages
  file k' c hc f hf := List.mem_append_left _ (h.file k' c hc f hf)
  datagrams aai f hf := by
    obtain ⟨k', hk', hp⟩ := h.datagrams aai f hf
    exact ⟨k', List.mem_append_left _ hk', hp⟩
  written f r hw := by
    obtain ⟨k', hk', hp⟩ := h.written f r hw
    exact ⟨k', List.mem_append_left _ hk', hp⟩

/-- A flow of a call has been announced in one of its messages. -/
lemma Call.exists_announcement {c : Call} {q : IpPort} (h : q ∈ c.flows) :
    ∃ msg ∈ c.messages, .addIpPort q.1 q.2 ∈ msg.writes := by
  obtain ⟨w, hw, hq⟩ := List.mem_filterMap.mp (mem_of_mem_firstDistinct h)
  obtain ⟨msg, hmsg, hwm⟩ := List.mem_flatMap.mp hw
  refine ⟨msg, hmsg, ?_⟩
  cases w with
  | addIpPort addr port =>
    obtain rfl : (addr, port) = q := Option.some.inj hq
    exact hwm
  | _ => cases hq

/-- **What a packet leads to** has its reasons in the packets. -/
lemma Provenance.hears (h : Provenance o inputs A) (hp : .packet p ∈ inputs) (hB : A.Hears o p B) :
    Provenance o inputs B := by
  cases hB with
  | other => exact h
  | stray => exact h
  | @fragment aai last hr =>
    have hwrite : Provenance o inputs (A.write (A.datagrams aai) p.record) := by
      rcases hfile : A.datagrams aai with _ | f
      · exact h.write (k := (0, [])) (fun _ hf => nomatch hf) hp fun _ hf => nomatch hf
      · obtain ⟨k, hk, p', msg, hp', hmsg, hbegun⟩ := h.datagrams aai f hfile
        exact h.write (k := k) (fun g hg => Option.some.inj hg ▸ hk) hp
          fun _ _ => .fragment hr hp' hmsg hbegun
    refine ⟨hwrite.messages, hwrite.file, fun aai' f hf => ?_, hwrite.written⟩
    cases last with
    | false => exact h.datagrams aai' f hf
    | true =>
      have hupdate : Function.update A.datagrams aai none aai' = some f := hf
      rw [Function.update_apply] at hupdate
      split at hupdate
      · cases hupdate
      · exact h.datagrams aai' f hupdate
  | @media flows before after q ssrc pt message datagram k c hr hflows hbefore hk htakes =>
    have hmem : q ∈ (reading o p).flows := by
      rw [hr, Reading.flows, hflows]
      exact List.mem_append_right _ List.mem_cons_self
    obtain ⟨msg, hmsg, hannounced⟩ := Call.exists_announcement htakes.1
    obtain ⟨p', hp', hm⟩ := h.messages k c hk msg hmsg
    have hreceive : Provenance o inputs (A.update k
        (c.receive ⟨q, ssrc, p.ts, c.saves o pt⟩ htakes.1)) :=
      h.update (h.messages k c hk) (h.file k c hk)
    refine hreceive.write (k := k) (fun f hf => ?_) hp
      fun f hf => .media hmem hp' hm hannounced
    split at hf
    · exact h.file k c hk f hf
    · cases hf
  | @known flows ssrc pt msg callId datagram c hr hflows hid hk =>
    have hm : MessageOf o (keyOf callId) p msg := ⟨by rw [hr]; rfl, by rw [hid]; rfl⟩
    have hdatagram : (reading o p).datagram = datagram := by rw [hr]; rfl
    refine h.tell (c := c.hear msg) (fun msg' hmsg' => ?_) (h.file _ c hk) hp hm hdatagram
    rcases List.mem_append.mp hmsg' with hold | hnew
    · exact h.messages _ c hk msg' hold
    · exact ⟨p, hp, List.mem_singleton.mp hnew ▸ hm⟩
  | @new flows ssrc pt msg callId datagram file hr hflows hid hk hn hfile =>
    have hm : MessageOf o (keyOf callId) p msg := ⟨by rw [hr]; rfl, by rw [hid]; rfl⟩
    have hdatagram : (reading o p).datagram = datagram := by rw [hr]; rfl
    refine (h.enrol (keyOf callId) file msg).tell (c := (Call.fresh p.ts file).hear msg)
      (fun msg' hmsg' => ?_) (fun f hf => ?_) hp hm hdatagram
    · rcases List.mem_append.mp hmsg' with hold | hnew
      · exact absurd hold List.not_mem_nil
      · exact ⟨p, hp, List.mem_singleton.mp hnew ▸ hm⟩
    · have hff : file = some f := hf
      exact List.mem_append_right _ (by rw [hff]; exact List.mem_singleton_self _)

/-- **The archive keeps the provenance.** -/
theorem Provenance.step {a : Input} (h : Provenance o inputs A)
    (hB : (Archive.system o).step A a B) : Provenance o (inputs ++ [a]) B := by
  have hold : Provenance o (inputs ++ [a]) A := h.mono (List.subset_append_left _ _)
  cases a with
  | cleanup T =>
    obtain rfl : B = A.expire o T := hB
    exact hold.expire T
  | packet p =>
    refine Provenance.hears ?_ (List.mem_append_right _ (List.mem_singleton_self _)) hB
    unfold Archive.pass
    dsimp only
    split
    · exact ⟨(hold.expire p.ts).messages, (hold.expire p.ts).file, hold.datagrams, hold.written⟩
    · exact hold

/-! ### In the capture loop -/

/-- **Why a packet is dumped for a call.**  Each record that a dumper is given which a run has
opened for a call is that of a packet of the run that belongs to the call. -/
theorem dumpedTo_belong (o : Options) (host : Host) (inputs : List Input) {callId fn : Bytes}
    {f : Handle} {r : Record}
    (hopen : .dumpOpen callId fn (some f) ∈ ((loop o host).run o.start inputs).world.log)
    (hr : r ∈ ((loop o host).run o.start inputs).world.dumpedTo f) :
    ∃ p, .packet p ∈ inputs ∧ Belongs o inputs (keyOf callId) p r := by
  obtain ⟨A, hprov, harch⟩ := (loop_refines_archive o host).transfer (archived_start o)
    (P := Provenance o) (Provenance.start o) (fun _ _ _ _ h hstep => h.step hstep) inputs
  obtain ⟨d, hd, rfl⟩ := List.mem_map.mp hr
  obtain ⟨hd, hf⟩ := List.mem_filter.mp hd
  have hwritten : (f, d.2.2) ∈ A.written := by
    rw [← harch.written, ← of_decide_eq_true hf]
    exact List.mem_map.mpr ⟨d, hd, rfl⟩
  obtain ⟨k, hk, hp⟩ := hprov.written f d.2.2 hwritten
  -- the file has been opened for one call only
  obtain rfl : k = keyOf callId := by
    rw [← harch.opened, List.mem_filterMap] at hk
    obtain ⟨e, he, hfor⟩ := hk
    unfold IoEvent.openedFor at hfor
    split at hfor
    · rename_i callId' fn' f'
      obtain ⟨rfl, rfl⟩ := Prod.mk.inj (Option.some.inj hfor)
      exact congrArg keyOf ((filesOfCalls_run o host inputs).once f' callId callId' fn fn' hopen he)
    · cases hfor
  exact hp

/-- The media packet of a call. -/
theorem dumpedTo_belong_media :
    let inputs : List Input := [.packet (.captured 1000 (invite "x")),
      .packet (.captured 1002 (media 4000 1))]
    let w := ((loop Options.raw Host.numbering).run Options.raw.start inputs).world
    (Packet.captured 1002 (media 4000 1)).record ∈ w.dumpedTo 1 ∧
      ∃ p, .packet p ∈ inputs ∧ Belongs Options.raw inputs (keyOf (ascii "x")) p
        (Packet.captured 1002 (media 4000 1)).record := by
  intro inputs w
  have hopen : .dumpOpen (ascii "x") (ascii "x.pcap") (some 1) ∈ w.log := by decide +kernel
  have hr : (Packet.captured 1002 (media 4000 1)).record ∈ w.dumpedTo 1 := by decide +kernel
  exact ⟨hr, dumpedTo_belong Options.raw Host.numbering inputs hopen hr⟩

end PcapSipDump
