import Mathlib
import Emane.Lib.Collector
import Emane.BentPipe.Queue

set_option autoImplicit false

/-! # Reassembly of BentPipe components

`addFragment` is the reassembly of `upstream`: fragments are kept by source and packet number, in a
map ordered by offset, and a packet is complete when as many fragments as the last one announces are
there, with all indices and without gaps.

The abstract purpose is the collector of `Emane.Lib.Collector`: the parts of packet number `k` are
the components that cut it. `simulates` says that the receiver is one.
-/

namespace Emane.BentPipe

open Emane.Lib
open Std (ExtTreeMap)

/-! ## The wire and the receiver's state -/

structure BentPipeFragment where
  more : Bool
  index : ℕ
  offset : ℕ
  sequence : UInt64

structure BentPipeComponent where
  destination : ℕ
  data : Bytes
  fragment : Option BentPipeFragment

/-- A component as `send_downstream` puts it on the wire; the 32-bit offset saturates. -/
def wireComponent (component : TxComponent) : BentPipeComponent where
  destination := component.packet.info.destination.toNat
  data := component.packet.payload
  fragment :=
    if component.fragmented then
      some {
        more := component.more
        index := component.fragmentIndex
        offset := if component.offset < 2 ^ 32 then component.offset else 2 ^ 32 - 1
        sequence := component.sequence }
    else none

structure Reassembly where
  info : FfiPacketInfo
  destination : UInt16
  parts : ExtTreeMap ℕ (ℕ × Bytes)
  lastFragmentIndex : Option ℕ
  lastUpdate : ℤ

/-- The entries, by source and packet number. -/
abbrev Store := UInt16 × UInt64 → Option Reassembly

/-- `expire_reassembly` -/
def expireReassembly (timeout now : ℤ) (store : Store) : Store :=
  fun key => (store key).filter fun entry => decide (now - entry.lastUpdate < timeout)

/-! ## Receiving a component -/

/-- The parts lie one after the other from `offset` on. -/
def contiguous : ℕ → List (ℕ × (ℕ × Bytes)) → Bool
  | _, [] => true
  | offset, (partOffset, (_, data)) :: rest =>
      partOffset == offset && contiguous (offset + data.length) rest

/-- The test whether an entry is complete. -/
def complete (entry : Reassembly) : Bool :=
  match entry.lastFragmentIndex with
  | none => false
  | some last =>
      entry.parts.size == last + 1 &&
        ((List.range (last + 1)).all fun index =>
          entry.parts.toList.any fun part => part.2.1 == index) &&
        contiguous 0 entry.parts.toList

/-- The entry with a fragment it did not have. -/
def Reassembly.add (entry : Reassembly) (fragment : BentPipeFragment) (data : Bytes) (now : ℤ) :
    Reassembly :=
  { entry with
    parts := entry.parts.insert fragment.offset (fragment.index, data)
    lastFragmentIndex := if fragment.more then entry.lastFragmentIndex else some fragment.index
    lastUpdate := now }

/-- A fragment arrives: the new store and the packet it completes, if it does. -/
def addFragment (store : Store) (source destination : UInt16) (fragment : BentPipeFragment)
    (data : Bytes) (now : ℤ) : Store × Option OwnedPacket :=
  let key := (source, fragment.sequence)
  let entry := (store key).getD
    { info := ⟨source, destination⟩, destination := destination, parts := ∅
      lastFragmentIndex := none, lastUpdate := now }
  if entry.destination ≠ destination ∨
      (entry.parts.toList.any fun part => part.2.1 == fragment.index) = true then
    (Function.update store key (some entry), none)
  else
    let entry := entry.add fragment data now
    if complete entry then
      (Function.update store key none,
        some ⟨entry.info, entry.parts.toList.flatMap fun part => part.2.2⟩)
    else
      (Function.update store key (some entry), none)

/-- The loop body of `upstream` for a component whose destination is accepted. -/
def upstreamComponent (expire : ℤ → Store → Store) (store : Store) (source : UInt16)
    (component : BentPipeComponent) (now : ℤ) : Store × Option OwnedPacket :=
  if component.destination < 65536 then
    let destination := UInt16.ofNat component.destination
    match component.fragment with
    | some fragment => addFragment (expire now store) source destination fragment component.data now
    | none => (store, some ⟨⟨source, destination⟩, component.data⟩)
  else
    (store, none)

/-! ## A receiver's run -/

/-- What happens at a receiver: a component of the observed sender arrives, or one of another
source, or the reassembly check is due. -/
inductive Arrival
  | sent (component : TxComponent) (now : ℤ)
  | other (source : UInt16) (component : BentPipeComponent) (now : ℤ)
  | check (now : ℤ)

/-- One step of a receiver that hears `sender`. -/
def receive (expire : ℤ → Store → Store) (sender : UInt16) (store : Store) :
    Arrival → Store × Option OwnedPacket
  | .sent component now => upstreamComponent expire store sender (wireComponent component) now
  | .other source component now => upstreamComponent expire store source component now
  | .check now => (expire now store, none)

/-! ## The components of one packet -/

/-- Where a component goes in the map of parts. -/
def place (c : TxComponent) : ℕ × (ℕ × Bytes) := (c.offset, (c.fragmentIndex, c.packet.payload))

namespace CutTo

variable {packet : OwnedPacket} {sequence : UInt64} {offset : ℕ} {cs : List TxComponent}

/-- The cuts tile the packet. -/
theorem tiles (h : CutTo packet sequence offset cs) :
    Tiles Prod.snd 0 (cs.map place) ∧
      joined Prod.snd (cs.map place) = packet.payload.take offset := by
  induction h with
  | start => exact ⟨trivial, by simp [joined]⟩
  | @cut offset cs size hcut hpos hle ih =>
      have hlen : (joined Prod.snd (cs.map place)).length = offset := by
        rw [ih.2, List.length_take]
        omega
      have hdata : packet.payload.extract offset (offset + size) =
          (packet.payload.drop offset).take size := by
        rw [List.extract_eq_take_drop, Nat.add_sub_cancel_left]
      rw [List.map_append, tiles_append, joined_append, hlen, ih.2]
      refine ⟨⟨ih.1, by simp [place, component], ?_, trivial⟩, ?_⟩
      · rw [← List.length_pos_iff]
        simp only [place, component, hdata, List.length_take, List.length_drop]
        omega
      · simp only [joined, List.map_cons, List.map_nil, List.flatMap_cons, List.flatMap_nil, place,
          component, hdata, List.append_nil]
        exact List.take_add.symm

theorem indices (h : CutTo packet sequence offset cs) :
    cs.map TxComponent.fragmentIndex = List.range cs.length := by
  induction h with
  | start => rfl
  | cut size _ _ _ ih => simp [ih, component, List.range_succ]

theorem of_mem (h : CutTo packet sequence offset cs) :
    ∀ c ∈ cs, c.sequence = sequence ∧ c.packet.info = packet.info ∧
      c.offset < packet.payload.length := by
  induction h with
  | start => simp
  | cut size _ hpos hle ih =>
      intro c hc
      rcases List.mem_append.mp hc with hc | hc
      · exact ih c hc
      · rw [List.mem_singleton.mp hc]
        exact ⟨rfl, rfl, by simp only [component]; omega⟩

/-- Only the component with which a packet ends says that no more follow. -/
theorem last (h : CutTo packet sequence offset cs) :
    ∀ c ∈ cs, c.more = false →
      offset = packet.payload.length ∧ c.fragmentIndex + 1 = cs.length := by
  induction h with
  | start => simp
  | cut size _ hpos hle ih =>
      intro c hc hmore
      rcases List.mem_append.mp hc with hc | hc
      · have := (ih c hc hmore).1
        omega
      · rw [List.mem_singleton.mp hc] at hmore ⊢
        simp only [component, decide_eq_false_iff_not] at hmore
        exact ⟨by omega, by simp [component]⟩

theorem exists_last (h : CutTo packet sequence offset cs) (hend : offset = packet.payload.length)
    (hne : cs ≠ []) : ∃ c ∈ cs, c.more = false := by
  cases h with
  | start => exact absurd rfl hne
  | cut size _ _ _ => exact ⟨_, List.mem_append_right _ (List.mem_singleton_self _), by
      simp only [component, decide_eq_false_iff_not]
      omega⟩

/-- A component that is not a fragment is the whole packet. -/
theorem whole (h : CutTo packet sequence offset cs) :
    ∀ c ∈ cs, c.fragmented = false → cs = [c] ∧ c.packet.payload = packet.payload := by
  induction h with
  | start => simp
  | @cut offset cs size hcut hpos hle ih =>
      intro c hc hfrag
      rcases List.mem_append.mp hc with hc | hc
      · -- the packet would have ended before this cut
        obtain ⟨rfl, hpayload⟩ := ih c hc hfrag
        have htake := hcut.tiles.2
        simp only [joined, place, List.map_cons, List.map_nil, List.flatMap_cons, List.flatMap_nil,
          List.append_nil] at htake
        have hlen := congrArg List.length (hpayload.symm.trans htake)
        rw [List.length_take] at hlen
        omega
      · rw [List.mem_singleton.mp hc] at hfrag ⊢
        simp only [component, decide_eq_false_iff_not, not_or, not_not, not_lt] at hfrag
        obtain ⟨rfl, hend⟩ := hfrag
        have hnil : cs = [] := List.eq_nil_of_length_eq_zero (Nat.le_zero.mp hcut.length_le)
        subst hnil
        refine ⟨rfl, ?_⟩
        simp only [component, List.extract_eq_take_drop, Nat.zero_add, Nat.sub_zero, List.drop_zero]
        exact List.take_of_length_le (by omega)

/-- The index of a component tells it from the others. -/
theorem index_inj (h : CutTo packet sequence offset cs) {c d : TxComponent} (hc : c ∈ cs)
    (hd : d ∈ cs) (heq : c.fragmentIndex = d.fragmentIndex) : c = d := by
  refine List.inj_on_of_nodup_map ?_ hc hd heq
  rw [h.indices]
  exact List.nodup_range

end CutTo

/-! ## Entries -/

/-- The fragment of a component on the wire. -/
def wireFragment (c : TxComponent) : BentPipeFragment :=
  { more := c.more, index := c.fragmentIndex, offset := c.offset, sequence := c.sequence }

/-- An entry that has received the components `received` of packet `packet`, cut into `cs`. -/
structure Represents (sender : UInt16) (packet : OwnedPacket) (cs : List TxComponent)
    (entry : Reassembly) (received : Finset TxComponent) : Prop where
  info : entry.info = ⟨sender, packet.info.destination⟩
  destination : entry.destination = packet.info.destination
  holds : Holds place entry.parts received
  last_eq : ∀ l, entry.lastFragmentIndex = some l → l + 1 = cs.length
  last_ne : ∀ c ∈ received, c.more = false → entry.lastFragmentIndex ≠ none

section

variable {sender : UInt16} {packet : OwnedPacket} {sequence : UInt64} {cs : List TxComponent}
  {entry : Reassembly} {received : Finset TxComponent} {c : TxComponent}

/-- The index of a component is in the entry exactly when the component was received. -/
theorem Represents.any_index (hcut : CutTo packet sequence packet.payload.length cs)
    (h : Represents sender packet cs entry received) (hsub : received ⊆ cs.toFinset) (hc : c ∈ cs) :
    (entry.parts.toList.any fun part => part.2.1 == c.fragmentIndex) = true ↔ c ∈ received := by
  rw [List.any_eq_true]
  constructor
  · rintro ⟨⟨o, v⟩, hmem, hindex⟩
    obtain ⟨d, hd, hplace⟩ := (h.holds o v).mp (ExtTreeMap.mem_toList_iff_getElem?_eq_some.mp hmem)
    have hv : v.1 = d.fragmentIndex := by rw [← congrArg (fun p => p.2.1) hplace]; rfl
    have hdc : d = c := hcut.index_inj (List.mem_toFinset.mp (hsub hd)) hc
      (hv.symm.trans (beq_iff_eq.mp hindex))
    exact hdc ▸ hd
  · intro hr
    exact ⟨place c, ExtTreeMap.mem_toList_iff_getElem?_eq_some.mpr ((h.holds _ _).mpr ⟨c, hr, rfl⟩),
      beq_self_eq_true c.fragmentIndex⟩

/-- The entry after a new component. -/
theorem Represents.insert (hcut : CutTo packet sequence packet.payload.length cs)
    (h : Represents sender packet cs entry received) (hsub : received ⊆ cs.toFinset) (hc : c ∈ cs)
    (now : ℤ) :
    Represents sender packet cs (entry.add (wireFragment c) c.packet.payload now)
      (insert c received) where
  info := h.info
  destination := h.destination
  holds := h.holds.insert (d := c) fun e he heq =>
    hcut.tiles.1.offset_inj (List.mem_toFinset.mp (hsub he)) hc heq
  last_eq := by
    intro l hl
    change (if c.more then entry.lastFragmentIndex else some c.fragmentIndex) = some l at hl
    split at hl
    · exact h.last_eq l hl
    · next hmore =>
        cases hl
        exact (hcut.last c hc (Bool.eq_false_iff.mpr hmore)).2
  last_ne := by
    intro d hd hmore
    change (if c.more then entry.lastFragmentIndex else some c.fragmentIndex) ≠ none
    split
    · next hcmore =>
        rcases Finset.mem_insert.mp hd with rfl | hd
        · rw [hmore] at hcmore
          cases hcmore
        · exact h.last_ne d hd hmore
    · simp

theorem contiguous_of_tiles : ∀ (parts : List (ℕ × (ℕ × Bytes))) (o : ℕ),
    Tiles Prod.snd o parts → contiguous o parts = true := by
  intro parts
  induction parts with
  | nil => exact fun o _ => rfl
  | cons p ps ih =>
      rintro o ⟨rfl, -, htail⟩
      simp only [contiguous, beq_self_eq_true, Bool.true_and]
      exact ih _ htail

/-- **An entry is complete exactly when every component was received.** -/
theorem Represents.complete_iff (hcut : CutTo packet sequence packet.payload.length cs)
    (h : Represents sender packet cs entry received) (hsub : received ⊆ cs.toFinset) (hne : cs ≠ []) :
    complete entry = true ↔ received = cs.toFinset := by
  have htiles := hcut.tiles.1
  unfold complete
  constructor
  · intro hcomplete
    split at hcomplete
    · cases hcomplete
    next l hl =>
    simp only [Bool.and_eq_true, beq_iff_eq] at hcomplete
    -- as many parts as the packet has components: the map lists all of them
    have hlen : entry.parts.toList.length = (cs.map place).length := by
      rw [ExtTreeMap.length_toList, hcomplete.1.1, List.length_map, h.last_eq l hl]
    exact (h.holds.toList_eq_iff htiles hsub).mp ((h.holds.sublist htiles hsub).eq_of_length hlen)
  · intro hall
    have hlist := (h.holds.toList_eq_iff htiles hsub).mpr hall
    obtain ⟨c, hc, hmore⟩ := hcut.exists_last rfl hne
    obtain ⟨l, hl⟩ := Option.ne_none_iff_exists'.mp
      (h.last_ne c (hall ▸ List.mem_toFinset.mpr hc) hmore)
    have hlast := h.last_eq l hl
    simp only [hl, ← ExtTreeMap.length_toList, hlist, Bool.and_eq_true, beq_iff_eq, List.length_map]
    refine ⟨⟨hlast.symm, ?_⟩, contiguous_of_tiles _ 0 htiles⟩
    rw [List.all_eq_true]
    intro i hi
    have hi : i ∈ cs.map TxComponent.fragmentIndex := by
      rw [hcut.indices, ← hlast]
      exact hi
    obtain ⟨d, hd, rfl⟩ := List.mem_map.mp hi
    exact List.any_eq_true.mpr ⟨place d, List.mem_map_of_mem hd, beq_self_eq_true d.fragmentIndex⟩

/-- A complete entry yields the payload of the packet. -/
theorem Represents.joined_eq (hcut : CutTo packet sequence packet.payload.length cs)
    (h : Represents sender packet cs entry received) (hall : received = cs.toFinset) :
    (entry.parts.toList.flatMap fun part => part.2.2) = packet.payload := by
  rw [(h.holds.toList_eq_iff hcut.tiles.1 hall.le).mpr hall]
  exact hcut.tiles.2.trans (List.take_length ..)

/-- What the store holds for a packet of which `received` was received since it was last complete. -/
structure Shows (sender : UInt16) (packet : OwnedPacket) (cs : List TxComponent)
    (slot : Option Reassembly) (received : Finset TxComponent) : Prop where
  sub : received ⊆ cs.toFinset
  incomplete : received ≠ cs.toFinset
  empty : slot = none → received = ∅
  entry : ∀ entry, slot = some entry → Represents sender packet cs entry received

/-- **What a fragment does to the slot of its packet**: the packet is released and the slot freed if
the fragment completes it, else the slot shows the fragment too. Other slots stay as they are. -/
theorem addFragment_spec {store : Store} (hcut : CutTo packet sequence packet.payload.length cs)
    (hc : c ∈ cs) (h : Shows sender packet cs (store (sender, sequence)) received) (now : ℤ) :
    (insert c received = cs.toFinset →
      addFragment store sender packet.info.destination (wireFragment c) c.packet.payload now =
        (Function.update store (sender, sequence) none,
          some ⟨⟨sender, packet.info.destination⟩, packet.payload⟩)) ∧
    (insert c received ≠ cs.toFinset →
      ∃ slot, Shows sender packet cs slot (insert c received) ∧
        addFragment store sender packet.info.destination (wireFragment c) c.packet.payload now =
          (Function.update store (sender, sequence) slot, none)) := by
  have hne : cs ≠ [] := List.ne_nil_of_mem hc
  have hkey : (wireFragment c).sequence = sequence := (hcut.of_mem c hc).1
  -- the entry that is there or is made
  obtain ⟨entry, hentry, hrep⟩ : ∃ entry, (store (sender, sequence)).getD
      { info := ⟨sender, packet.info.destination⟩, destination := packet.info.destination, parts := ∅
        lastFragmentIndex := none, lastUpdate := now } = entry ∧
      Represents sender packet cs entry received := by
    cases hslot : store (sender, sequence) with
    | some entry => exact ⟨entry, rfl, h.entry entry hslot⟩
    | none =>
        refine ⟨_, rfl, rfl, rfl, ?_, by simp, ?_⟩
        · rw [h.empty hslot]
          exact holds_empty
        · rw [h.empty hslot]
          simp
  unfold addFragment
  simp only [hkey, hentry]
  by_cases hdup : c ∈ received
  · have hany : entry.destination ≠ packet.info.destination ∨
        (entry.parts.toList.any fun part => part.2.1 == (wireFragment c).index) = true :=
      Or.inr ((hrep.any_index hcut h.sub hc).mpr hdup)
    rw [if_pos hany, Finset.insert_eq_of_mem hdup]
    refine ⟨fun hall => absurd hall h.incomplete, fun _ => ⟨some entry, ?_, rfl⟩⟩
    exact ⟨h.sub, h.incomplete, by simp, fun _ heq => Option.some.inj heq ▸ hrep⟩
  · have hnot : ¬ (entry.destination ≠ packet.info.destination ∨
        (entry.parts.toList.any fun part => part.2.1 == (wireFragment c).index) = true) :=
      not_or.mpr ⟨not_not.mpr hrep.destination,
        fun hany => hdup ((hrep.any_index hcut h.sub hc).mp hany)⟩
    have hsub : insert c received ⊆ cs.toFinset :=
      Finset.insert_subset (List.mem_toFinset.mpr hc) h.sub
    have hrep' := hrep.insert hcut h.sub hc now
    have hiff := hrep'.complete_iff hcut hsub hne
    rw [if_neg hnot]
    constructor
    · intro hall
      rw [if_pos (hiff.mpr hall)]
      exact congrArg (fun packet => (_, some packet))
        (congrArg₂ OwnedPacket.mk hrep.info (hrep'.joined_eq hcut hall))
    · intro hall
      rw [if_neg fun hcomplete => hall (hiff.mp hcomplete)]
      exact ⟨_, ⟨hsub, hall, by simp, fun _ heq => Option.some.inj heq ▸ hrep'⟩, rfl⟩

end

/-! ## The collector of a sender's packets -/

/-- A complete cut of every numbered packet that continues the components handed out so far. -/
structure Plan (s : Sender) (plan : UInt64 → List TxComponent) : Prop where
  cut : ∀ e ∈ s.enqueued, CutTo e.2 e.1 e.2.payload.length (plan e.1)
  begins : ∀ e ∈ s.enqueued, partsOf s.produced e.1 <+: plan e.1
  done : ∀ e ∈ s.enqueued, (∃ c ∈ partsOf s.produced e.1, c.more = false) →
    plan e.1 = partsOf s.produced e.1
  unknown : ∀ k, k ∉ s.enqueued.map Prod.fst → plan k = []

/-- The components of a numbered packet can be continued to a complete cut. -/
theorem exists_cut {s : Sender} (h : s.Inv) {e : UInt64 × OwnedPacket} (he : e ∈ s.enqueued) :
    ∃ cs, CutTo e.2 e.1 e.2.payload.length cs ∧ partsOf s.produced e.1 <+: cs ∧
      ((∃ c ∈ partsOf s.produced e.1, c.more = false) → cs = partsOf s.produced e.1) := by
  obtain ⟨o, ho⟩ := h.allCut e he
  by_cases hlt : o < e.2.payload.length
  · refine ⟨_, ho.finish hlt, List.prefix_append .., ?_⟩
    rintro ⟨c, hc, hmore⟩
    exact absurd (ho.last c hc hmore).1 hlt.ne
  · obtain rfl : o = e.2.payload.length := le_antisymm ho.offset_le (not_lt.mp hlt)
    exact ⟨_, ho, List.prefix_refl _, fun _ => rfl⟩

theorem exists_plan {s : Sender} (h : s.Inv) : ∃ plan, Plan s plan := by
  have hone : ∀ k, ∃ cs : List TxComponent,
      (∀ e ∈ s.enqueued, e.1 = k → CutTo e.2 e.1 e.2.payload.length cs ∧
        partsOf s.produced e.1 <+: cs ∧
        ((∃ c ∈ partsOf s.produced e.1, c.more = false) → cs = partsOf s.produced e.1)) ∧
      (k ∉ s.enqueued.map Prod.fst → cs = []) := by
    intro k
    by_cases hk : k ∈ s.enqueued.map Prod.fst
    · obtain ⟨e, he, rfl⟩ := List.mem_map.mp hk
      obtain ⟨cs, hcs⟩ := exists_cut h he
      refine ⟨cs, fun e' he' heq => ?_, fun hnot => absurd hk hnot⟩
      rw [h.numbered.inj e' he' e he heq]
      exact hcs
    · exact ⟨[], fun e he heq => absurd (heq ▸ List.mem_map_of_mem he) hk, fun _ => rfl⟩
  choose plan hplan using hone
  exact ⟨plan, fun e he => ((hplan e.1).1 e he rfl).1, fun e he => ((hplan e.1).1 e he rfl).2.1,
    fun e he => ((hplan e.1).1 e he rfl).2.2, fun k hk => (hplan k).2 hk⟩

namespace Plan

variable {s : Sender} {plan : UInt64 → List TxComponent}

/-- The parts of packet number `k` are the components that cut it. -/
def collector (h : Plan s plan) : Collector UInt64 TxComponent where
  owner := TxComponent.sequence
  whole k := (plan k).toFinset
  owner_of_mem := by
    intro k c hc
    rw [List.mem_toFinset] at hc
    by_cases hk : k ∈ s.enqueued.map Prod.fst
    · obtain ⟨e, he, rfl⟩ := List.mem_map.mp hk
      exact ((h.cut e he).of_mem c hc).1
    · rw [h.unknown k hk] at hc
      cases hc

/-- A component that was handed out is a part of its packet. -/
theorem mem_plan (h : Plan s plan) (hinv : s.Inv) {c : TxComponent} (hc : c ∈ s.produced) :
    ∃ packet, (c.sequence, packet) ∈ s.enqueued ∧ c ∈ plan c.sequence := by
  obtain ⟨e, he, hseq⟩ := List.mem_map.mp (hinv.known c hc)
  have hmem : c ∈ partsOf s.produced e.1 := by simp [partsOf, hc, hseq]
  refine ⟨e.2, hseq ▸ he, ?_⟩
  rw [← hseq]
  exact (h.begins e he).subset hmem

end Plan

/-! ## The receiver simulates the collector -/

section

variable {s : Sender} {plan : UInt64 → List TxComponent}

/-- The store represents what the collector has received of each packet of the sender; entries are
filed under their own source. -/
structure StoreRepresents (s : Sender) (plan : UInt64 → List TxComponent) (sender : UInt16)
    (store : Store) (received : UInt64 → Finset TxComponent) : Prop where
  shows : ∀ e ∈ s.enqueued, plan e.1 ≠ [] →
    Shows sender e.2 (plan e.1) (store (sender, e.1)) (received e.1)
  source : ∀ key entry, store key = some entry → entry.info.source = key.1

variable {sender : UInt16} {store : Store} {received : UInt64 → Finset TxComponent}

/-- A change of the slot of one packet of the sender. -/
theorem StoreRepresents.update (h : StoreRepresents s plan sender store received) (hinv : s.Inv)
    {e : UInt64 × OwnedPacket} (he : e ∈ s.enqueued) {slot : Option Reassembly}
    {r : Finset TxComponent} (hshows : Shows sender e.2 (plan e.1) slot r) :
    StoreRepresents s plan sender (Function.update store (sender, e.1) slot)
      (Function.update received e.1 r) where
  shows := by
    intro e' he' hne
    by_cases heq : e'.1 = e.1
    · obtain rfl := hinv.numbered.inj e' he' e he heq
      rwa [Function.update_self, Function.update_self]
    · rw [Function.update_of_ne heq, Function.update_of_ne (by simpa using heq)]
      exact h.shows e' he' hne
  source := by
    intro key entry hentry
    by_cases hkey : key = (sender, e.1)
    · subst hkey
      rw [Function.update_self] at hentry
      rw [(hshows.entry entry hentry).info]
    · rw [Function.update_of_ne hkey] at hentry
      exact h.source key entry hentry

/-- A slot that is freed. -/
theorem shows_none {packet : OwnedPacket} {cs : List TxComponent} (hne : cs ≠ []) :
    Shows sender packet cs none ∅ where
  sub := Finset.empty_subset _
  incomplete h := hne ((List.toFinset_eq_empty_iff _).mp h.symm)
  empty _ := rfl
  entry := by simp

/-- The packet with number `k`. -/
def packetOf (s : Sender) (k : UInt64) : OwnedPacket :=
  ((s.enqueued.find? fun e => e.1 == k).map Prod.snd).getD ⟨⟨0, 0⟩, []⟩

theorem packetOf_eq (hinv : s.Inv) {e : UInt64 × OwnedPacket} (he : e ∈ s.enqueued) :
    packetOf s e.1 = e.2 := by
  unfold packetOf
  cases hfind : s.enqueued.find? fun e' => e'.1 == e.1 with
  | none => exact absurd (List.find?_eq_none.mp hfind e he) (by simp)
  | some e' =>
      have hkey : e'.1 = e.1 := by simpa using List.find?_some hfind
      rw [hinv.numbered.inj e' (List.mem_of_find?_eq_some hfind) e he hkey]
      rfl

/-- Packet number `k` as the receiver hands it on. -/
def completion (s : Sender) (sender : UInt16) (k : UInt64) : OwnedPacket :=
  ⟨⟨sender, (packetOf s k).info.destination⟩, (packetOf s k).payload⟩

/-- The arrivals of a receiver that hears `sender`: components that were handed out, or components
of other sources. -/
def Arrival.From (s : Sender) (sender : UInt16) : Arrival → Prop
  | .sent component _ => component ∈ s.produced
  | .other source _ _ => source ≠ sender
  | .check _ => True

/-- The component of the sender that an arrival carries. -/
def Arrival.view : Arrival → Option TxComponent
  | .sent component _ => some component
  | .other .. => none
  | .check _ => none

/-- A receiver that never removes stale entries. -/
def quiet : ℤ → Store → Store := fun _ store => store

/-- On the wire a component of the sender is its fragment, or the whole packet. -/
theorem wireComponent_eq {packet : OwnedPacket} {sequence : UInt64} {cs : List TxComponent}
    {c : TxComponent} (hcut : CutTo packet sequence packet.payload.length cs) (hc : c ∈ cs)
    (hsmall : packet.payload.length ≤ 64 * 2 ^ 20) :
    wireComponent c = ⟨packet.info.destination.toNat, c.packet.payload,
      if c.fragmented then some (wireFragment c) else none⟩ := by
  obtain ⟨-, hinfo, hoffset⟩ := hcut.of_mem c hc
  unfold wireComponent wireFragment
  rw [hinfo, if_pos (show c.offset < 2 ^ 32 by omega)]

theorem simulates_part (hplan : Plan s plan) (hinv : s.Inv) {c : TxComponent} {now : ℤ}
    (hc : c ∈ s.produced) (h : StoreRepresents s plan sender store received) :
    StoreRepresents s plan sender (receive quiet sender store (.sent c now)).1
        (hplan.collector.arrive received c).1 ∧
      (receive quiet sender store (.sent c now)).2 =
        (hplan.collector.arrive received c).2.map (completion s sender) := by
  obtain ⟨packet, he, hmem⟩ := hplan.mem_plan hinv hc
  have hcut := hplan.cut _ he
  have hshows := h.shows _ he (List.ne_nil_of_mem hmem)
  have hpacket : packetOf s c.sequence = packet := packetOf_eq hinv he
  have hcompletion : completion s sender c.sequence =
      ⟨⟨sender, packet.info.destination⟩, packet.payload⟩ := by rw [completion, hpacket]
  have hreceive : receive quiet sender store (.sent c now) =
      upstreamComponent quiet store sender ⟨packet.info.destination.toNat, c.packet.payload,
        if c.fragmented then some (wireFragment c) else none⟩ now := by
    rw [← wireComponent_eq hcut hmem (hinv.numbered.small _ he)]
    rfl
  rw [hreceive, upstreamComponent, if_pos packet.info.destination.toNat_lt]
  simp only [UInt16.ofNat_toNat]
  unfold Collector.arrive
  change StoreRepresents s plan sender _ (if insert c (received c.sequence) =
      (plan c.sequence).toFinset then (Function.update received c.sequence ∅, some c.sequence)
    else (Function.update received c.sequence (insert c (received c.sequence)), none)).1 ∧
    _ = Option.map _ (if insert c (received c.sequence) =
      (plan c.sequence).toFinset then (Function.update received c.sequence ∅, some c.sequence)
    else (Function.update received c.sequence (insert c (received c.sequence)), none)).2
  by_cases hfrag : c.fragmented = true
  · simp only [hfrag, if_true]
    obtain ⟨hall, hrest⟩ := addFragment_spec hcut hmem hshows now
    by_cases heq : insert c (received c.sequence) = (plan c.sequence).toFinset
    · rw [if_pos heq, quiet, hall heq]
      exact ⟨h.update hinv he (shows_none (List.ne_nil_of_mem hmem)),
        congrArg some hcompletion.symm⟩
    · obtain ⟨slot, hslot, hadd⟩ := hrest heq
      rw [if_neg heq, quiet, hadd]
      exact ⟨h.update hinv he hslot, rfl⟩
  · -- the component is the whole packet, of which nothing else is ever received
    rw [Bool.not_eq_true] at hfrag
    obtain ⟨hone, hpayload⟩ := hcut.whole c hmem hfrag
    have hnone : received c.sequence = ∅ := by
      have hsub := hshows.sub
      have hincomplete := hshows.incomplete
      simp only [hone, List.toFinset_cons, List.toFinset_nil, insert_empty_eq] at hsub hincomplete
      exact (Finset.subset_singleton_iff.mp hsub).resolve_right hincomplete
    have heq : insert c (received c.sequence) = (plan c.sequence).toFinset := by
      rw [hnone]
      simp [show plan c.sequence = [c] from hone]
    rw [if_pos heq, ← hnone, Function.update_eq_self, hfrag]
    simp only [Bool.false_eq_true, if_false, hpayload]
    exact ⟨h, congrArg some hcompletion.symm⟩

/-- A fragment of any source touches one slot of that source, and a packet it completes is from it. -/
theorem addFragment_source (store : Store) (source destination : UInt16)
    (fragment : BentPipeFragment) (data : Bytes) (now : ℤ)
    (hsource : ∀ key entry, store key = some entry → entry.info.source = key.1) :
    ∃ slot out, addFragment store source destination fragment data now =
        (Function.update store (source, fragment.sequence) slot, out) ∧
      (∀ entry, slot = some entry → entry.info.source = source) ∧
      ∀ o ∈ out, o.info.source = source := by
  obtain ⟨entry, hentry, hinfo⟩ : ∃ entry, (store (source, fragment.sequence)).getD
      { info := ⟨source, destination⟩, destination := destination, parts := ∅
        lastFragmentIndex := none, lastUpdate := now } = entry ∧ entry.info.source = source := by
    cases hslot : store (source, fragment.sequence) with
    | some entry => exact ⟨entry, rfl, hsource _ entry hslot⟩
    | none => exact ⟨_, rfl, rfl⟩
  unfold addFragment
  simp only [hentry]
  split
  · exact ⟨_, _, rfl, fun _ heq => Option.some.inj heq ▸ hinfo, by simp⟩
  split
  · exact ⟨_, _, rfl, by simp, fun o ho => Option.some.inj ho ▸ hinfo⟩
  · exact ⟨_, _, rfl, fun _ heq => Option.some.inj heq ▸ hinfo, by simp⟩

theorem simulates_other {source : UInt16} (hne : source ≠ sender) (component : BentPipeComponent)
    (now : ℤ) (h : StoreRepresents s plan sender store received) :
    StoreRepresents s plan sender (upstreamComponent quiet store source component now).1 received ∧
      ∀ o ∈ (upstreamComponent quiet store source component now).2, o.info.source ≠ sender := by
  unfold upstreamComponent
  split
  · dsimp only
    split
    · next fragment _ =>
        obtain ⟨slot, out, heq, hslot, hout⟩ := addFragment_source store source
          (UInt16.ofNat component.destination) fragment component.data now h.source
        rw [quiet, heq]
        dsimp only
        refine ⟨⟨fun e he hplan => ?_, fun key entry hentry => ?_⟩, fun o ho => (hout o ho) ▸ hne⟩
        · have hkey : (sender, e.1) ≠ (source, fragment.sequence) := fun heq => hne (Prod.mk.inj heq).1.symm
          rw [Function.update_of_ne hkey]
          exact h.shows e he hplan
        · by_cases hkey : key = (source, fragment.sequence)
          · subst hkey
            rw [Function.update_self] at hentry
            exact hslot entry hentry
          · rw [Function.update_of_ne hkey] at hentry
            exact h.source key entry hentry
    · refine ⟨h, fun o ho => ?_⟩
      rw [← Option.some.inj ho]
      exact hne
  · exact ⟨h, by simp⟩

/-- **The receiver simulates the collector** as long as no entry is removed as stale. -/
theorem simulates (sender : UInt16) (hplan : Plan s plan) (hinv : s.Inv) :
    hplan.collector.Simulates (receive quiet sender) (StoreRepresents s plan sender)
      (Arrival.From s sender) Arrival.view (completion s sender)
      (fun o => o.info.source == sender) where
  own_out k := beq_self_eq_true sender
  part := by
    intro store received a d hfrom hview h
    cases a with
    | sent component now =>
        cases hview
        exact simulates_part hplan hinv hfrom h
    | other source component now => cases hview
    | check now => cases hview
  other := by
    intro store received a hfrom hview h
    cases a with
    | sent component now => cases hview
    | other source component now =>
        obtain ⟨hrep, hout⟩ := simulates_other hfrom component now h
        exact ⟨hrep, fun o ho => beq_false_of_ne (hout o ho)⟩
    | check now => exact ⟨h, by simp [receive]⟩

end

end Emane.BentPipe
