import PcapSipDump.Capture.Fragments

/-!
# The keys of the fragment map

A key is meant to be in the fragment map from the first fragment of a datagram, which
`add_ipfrag` records, to the end of the datagram, which `delete_ipfrag` is called for.  But
`get_ipfrag` adds the key that it does not find, and the branch for IPv6 records packets that no
fragment follows.  So the map has other keys exactly when one of these happens for a key that it
does not have (`fragment_map_iff`).
-/

namespace PcapSipDump

open Lib Lib.CString

variable {o : Options} {host : Host} {p : Packet} {s : State} {a : Input} {k : AddrAddrId}

/-- The packet is a fragment with offset 0, and more fragments of its datagram follow. -/
def startsDatagram (o : Options) (p : Packet) : Bool :=
  match headerIp o.dlt p.mem with
  | none => false
  | some ip =>
      (ipVersion p.mem ip = 4 && fragOff p.mem ip &&& 0x3fff = 0x2000) ||
        (isFragment6 p.mem ip && be16 p.mem (ip + 42) &&& 0xfff9 = 1)

/-- `add_ipfrag` is called with the key `k` for a first fragment with more fragments to come. -/
def RecordsFirst (o : Options) (host : Host) (k : AddrAddrId) (s : State) (a : Input) : Prop :=
  ∃ p v, a = .packet p ∧ startsDatagram o p ∧ Records o host k v s a

/-- `delete_ipfrag` is called with the key `k`: a last fragment has found a file. -/
def Deletes (o : Options) (k : AddrAddrId) (s : State) (a : Input) : Prop :=
  Finishes o k a ∧ ∃ f, s.world.ct.ipfrags k = some (some f)

/-- The map does not have the key `k`, and either a later fragment is looked up under it, or a
packet that is no first fragment with more fragments to come is recorded under it. -/
def AddsStray (o : Options) (host : Host) (k : AddrAddrId) (s : State) (a : Input) : Prop :=
  s.world.ct.ipfrags k = none ∧ ∃ p, a = .packet p ∧
    ((∃ last, laterFragment o p = some (k, last)) ∨
      startsDatagram o p = false ∧ ∃ v, Records o host k v s a)

/-- After every part of the run the keys of the map are those that `add_ipfrag` was called with for
a first fragment and `delete_ipfrag` has not been called with since. -/
def OnlyInProgress (o : Options) (host : Host) (inputs : List Input) : Prop :=
  ∀ pre, pre <+: inputs → ∀ k, ((loop o host).run o.start pre).world.ct.ipfrags k ≠ none →
    (loop o host).Since (RecordsFirst o host k) (Deletes o k) o.start pre

lemma AddsStray.not_recordsFirst (h : AddsStray o host k s a) : ¬RecordsFirst o host k s a := by
  rintro ⟨p, v, rfl, hfirst, hrec⟩
  obtain ⟨-, q, hq, hcase⟩ := h
  obtain rfl := Input.packet.inj hq
  rcases hcase with ⟨last, hlater⟩ | ⟨hno, -⟩
  · rw [hrec.laterFragment_eq] at hlater
    cases hlater
  · rw [hno] at hfirst
    exact absurd hfirst (by decide)

/-- **What puts a key into the map**: `add_ipfrag` for a first fragment, or one of the two other
ways; and a key that is there stays unless it is deleted. -/
lemma ipfrags_ne_none_step (hw : (afterPass s a).world.ct.TableInv) (k : AddrAddrId) :
    ((loop o host).next s a).world.ct.ipfrags k ≠ none ↔
      RecordsFirst o host k s a ∨ ¬Deletes o k s a ∧ s.world.ct.ipfrags k ≠ none ∨
        AddsStray o host k s a := by
  rcases ipfrags_step o host hw k with
    ⟨v, hrec, he⟩ | ⟨p, last, rfl, hlater, he⟩ | ⟨hrec, hlater, he⟩
  · rw [he]
    refine iff_of_true (by simp) ?_
    have hkeep : ¬Deletes o k s a := by
      cases a with
      | packet p =>
        rintro ⟨hfin, -⟩
        exact absurd (hrec.laterFragment_eq.symm.trans hfin) (by simp)
      | cleanup currtime => exact fun h => h.1
    by_cases hk : s.world.ct.ipfrags k = none
    · cases a with
      | packet p =>
        rcases hfirst : startsDatagram o p with _ | _
        · exact Or.inr (Or.inr ⟨hk, p, rfl, Or.inr ⟨hfirst, v, hrec⟩⟩)
        · exact Or.inl ⟨p, v, rfl, hfirst, hrec⟩
      | cleanup currtime => exact absurd hrec not_records_cleanup
    · exact Or.inr (Or.inl ⟨hkeep, hk⟩)
  · have hno : ¬RecordsFirst o host k s (.packet p) := by
      rintro ⟨q, v, -, -, hv⟩
      rw [hv.laterFragment_eq] at hlater
      cases hlater
    have hstray : AddsStray o host k s (.packet p) ↔ s.world.ct.ipfrags k = none :=
      ⟨fun h => h.1, fun h => ⟨h, p, rfl, Or.inl ⟨last, hlater⟩⟩⟩
    have hdel : Deletes o k s (.packet p) ↔
        last = true ∧ ∃ f, s.world.ct.ipfrags k = some (some f) := by
      rw [Deletes, Finishes, hlater]
      simp
    rw [he, hstray, hdel]
    rcases s.world.ct.ipfrags k with _ | _ | f
    · simp
    · simp
    · cases last <;> simp [hno]
  · rw [he]
    have hno : ¬RecordsFirst o host k s a := fun ⟨_, v, _, _, hv⟩ => hrec v hv
    have hkeep : ¬Deletes o k s a := by
      cases a with
      | packet p => exact fun h => hlater p true rfl h.1
      | cleanup currtime => exact fun h => h.1
    have hstray : ¬AddsStray o host k s a := by
      rintro ⟨-, p, rfl, ⟨last, h⟩ | ⟨-, v, h⟩⟩
      · exact hlater p last rfl h
      · exact hrec v h
    simp [hno, hkeep, hstray]

/-- **The fragment map has the keys of datagrams in progress only** exactly in the runs in which no
later fragment is looked up under a key that the map does not have, and no packet without further
fragments is recorded under such a key. -/
theorem fragment_map_iff (o : Options) (host : Host) (inputs : List Input) :
    OnlyInProgress o host inputs ↔
      (loop o host).Along (fun s a => ∀ k, ¬AddsStray o host k s a) o.start inputs := by
  refine Machine.explained_iff_along (M := loop o host)
    (P := fun k (s : State) => s.world.ct.ipfrags k ≠ none) (I := fun s : State => Owns s.world)
    (fun s a h => h.loop a) (fun s a k h => ?_) (fun s a k h => ⟨h.not_recordsFirst, ?_⟩)
    (owns_run o host []) (fun k hne => hne rfl) inputs
  · exact ipfrags_ne_none_step (h.afterPass a).tableInv k
  · exact fun hne => hne h.1

/-- The last fragment of a datagram whose first one has not been seen. -/
def strayFragment : Packet :=
  .captured 1000 (ipv4Udp 7 1 [10, 0, 0, 1] [10, 0, 0, 2] 5060 5060 [])

/-- Its lookup leaves its key in the map. -/
theorem fragment_map_false : ¬∀ (o : Options) (host : Host) (inputs : List Input),
    OnlyInProgress o host inputs := by
  intro h
  obtain ⟨pre, a, post, heq, ⟨p, v, rfl, -, hrec⟩, -⟩ :=
    h Options.raw Host.numbering [.packet strayFragment] _ (List.prefix_refl _)
      ⟨0x0100000a, 0x0200000a, 0x0700⟩ (by decide +kernel)
  have hp : Input.packet p ∈ [Input.packet strayFragment] := heq ▸ by simp
  obtain rfl := Input.packet.inj (List.mem_singleton.mp hp)
  exact absurd hrec.laterFragment_eq (by decide +kernel)

end PcapSipDump
