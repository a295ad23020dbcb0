import Mathlib
import Emane.PluginApi.Widening
import Emane.Eel.Loaders

set_option autoImplicit false

/-! # The tables of the receivers

A receiver is the physical layer of a NEM. The events change its location table and its pathloss table,
which is by source and frequency; a pathloss without a frequency stands at frequency zero. For each event
there is what it makes of the tables, entry by entry.

An event stands for the bytes that it is encoded to: decoding gives it back, and the receiver looks at
their number, which is a parameter.
-/

namespace Emane.Eel

open Emane.Lib
open Emane.Phy (Position Orientation Velocity Location PhyState)
open Emane.PluginApi (F32 F64 u16TryFrom)
open Std (ExtTreeMap LawfulEqOrd)

/-! ## The code -/

structure Receiver where
  phy : PhyState
  pathloss : ExtTreeMap UInt16 (ExtTreeMap UInt64 F64)

/-- The pathloss in the table. -/
def Receiver.pathlossDb (r : Receiver) (source : UInt16) (frequencyHz : UInt64) : Option F64 :=
  getAt? r.pathloss source frequencyHz

/-- The largest event that is looked at. -/
def maxEventLength : ℕ := 16 * 1024 * 1024

/-- One entry of a pathloss event. -/
def handlePathloss (table : ExtTreeMap UInt16 (ExtTreeMap UInt64 F64)) (item : PathlossItem) :
    ExtTreeMap UInt16 (ExtTreeMap UInt64 F64) :=
  match u16TryFrom item.nemId with
  | none => table
  | some nem =>
      let value := item.forwardPathlossdB.toF64
      if value.isFinite then insertAt table nem 0 value else table

/-- One frequency of an entry of a pathloss event with frequencies. -/
def handleFrequency (values : ExtTreeMap UInt64 F64) (entry : UInt64 × F32) : ExtTreeMap UInt64 F64 :=
  let value := entry.2.toF64
  if value.isFinite then values.insert entry.1 value else values

/-- One entry of a pathloss event with frequencies. -/
def handlePathlossEx (table : ExtTreeMap UInt16 (ExtTreeMap UInt64 F64)) (item : PathlossExItem) :
    ExtTreeMap UInt16 (ExtTreeMap UInt64 F64) :=
  match u16TryFrom item.nemId with
  | none => table
  | some nem => table.insert nem (item.entries.foldl handleFrequency (table[nem]?.getD ∅))

/-- The entries of an event, one after the other. -/
def Receiver.handle (r : Receiver) : Event → Receiver
  | .location locations => { r with phy := locations.foldl PhyState.handleLocation r.phy }
  | .pathloss pathlosses => { r with pathloss := pathlosses.foldl handlePathloss r.pathloss }
  | .pathlossEx pathlosses => { r with pathloss := pathlosses.foldl handlePathlossEx r.pathloss }

section

variable (encodedLen : Event → ℕ)

/-- `builtin_event` -/
def builtinEvent (r : Receiver) (event : Event) : Receiver :=
  if maxEventLength < encodedLen event then r else r.handle event

/-- A message reaches the NEM that it is for, or all. -/
def deliver (receivers : UInt16 → Receiver) (message : Message) : UInt16 → Receiver := fun nem =>
  if message.1 = 0 ∨ message.1 = nem then builtinEvent encodedLen (receivers nem) message.2
  else receivers nem

end

/-! ## Locations -/

namespace LocationEntry

/-- What the receivers check. -/
structure Valid (entry : LocationEntry) : Prop where
  position : entry.position.valid = true
  orientation : entry.orientation.valid = true
  velocity : entry.velocity.valid = true

theorem valid_default : default.Valid := ⟨by decide, by decide, by decide⟩

/-- The location that a receiver makes of an entry and of what it has. -/
def merge (entry : LocationEntry) (previous : Option Location) : Location where
  latitudeDegrees := entry.position.latitudeDegrees
  longitudeDegrees := entry.position.longitudeDegrees
  altitudeMeters := entry.position.altitudeMeters
  velocity := (if entry.hasVelocity then some entry.velocity else none).or
    (previous.bind Location.velocity)
  orientation := ((if entry.hasOrientation then some entry.orientation else none).or
    (previous.map Location.orientation)).getD Orientation.default

/-- The location that an entry stands for. -/
def location (entry : LocationEntry) : Location := entry.merge none

/-- An entry that came before `entry`. -/
structure Before (old entry : LocationEntry) : Prop where
  orientation : old.hasOrientation = true → entry.hasOrientation = true
  velocity : old.hasVelocity = true → entry.hasVelocity = true

theorem Before.refl (entry : LocationEntry) : Before entry entry := ⟨id, id⟩

theorem Before.set {old entry : LocationEntry} (h : Before old entry) (reading : Reading) :
    Before old (entry.set reading) := by
  cases reading with
  | position => exact ⟨h.orientation, h.velocity⟩
  | orientation => exact ⟨fun _ => rfl, h.velocity⟩
  | velocity => exact ⟨h.orientation, fun _ => rfl⟩

/-- **What a receiver got before leaves no trace**, if the entry has all that it had. -/
theorem Before.merge_eq {old entry : LocationEntry} (h : Before old entry) :
    entry.merge (some old.location) = entry.location := by
  have horientation := h.orientation
  have hvelocity := h.velocity
  unfold location merge
  cases hro : entry.hasOrientation <;> cases hrv : entry.hasVelocity <;> cases hoo : old.hasOrientation <;>
    cases hov : old.hasVelocity <;> simp_all

end LocationEntry

/-- A NEM is its own number. -/
theorem u16TryFrom_toNat (nem : UInt16) : u16TryFrom nem.toNat = some nem :=
  PluginApi.u16TryFrom_some_iff.mpr ⟨nem.toNat_lt, by simp⟩

theorem handleLocation_locations (s : PhyState) (nem : UInt16) {entry : LocationEntry} (h : entry.Valid)
    (n : UInt16) : (s.handleLocation (entry.message nem)).locations[n]? =
      if nem = n then some (entry.merge s.locations[n]?) else s.locations[n]? := by
  unfold PhyState.handleLocation
  rw [show (entry.message nem).nemId = nem.toNat from rfl, u16TryFrom_toNat]
  dsimp only
  rw [show (entry.message nem).position = entry.position from rfl, if_pos h.position]
  have horientation : (entry.message nem).orientation.filter Orientation.valid =
      (entry.message nem).orientation := by
    rw [LocationEntry.message]
    dsimp only
    split
    · rw [Option.filter_some_pos h.orientation]
    · rfl
  have hvelocity : (entry.message nem).velocity.filter Velocity.valid = (entry.message nem).velocity := by
    rw [LocationEntry.message]
    dsimp only
    split
    · rw [Option.filter_some_pos h.velocity]
    · rfl
  rw [horientation, hvelocity, PhyState.updateLocation]
  dsimp only
  rw [ExtTreeMap.getElem?_insert]
  simp only [LawfulEqOrd.compare_eq_iff_eq]
  by_cases hn : nem = n
  · subst hn
    rw [if_pos rfl, if_pos rfl]
    rfl
  · rw [if_neg hn, if_neg hn]

/-- **What a location event makes of the table.** -/
theorem foldl_handleLocation (cache : ExtTreeMap UInt16 LocationEntry)
    (h : ∀ (nem : UInt16) (entry : LocationEntry), cache[nem]? = some entry → entry.Valid) (s : PhyState)
    (n : UInt16) :
    ((cache.toList.map fun entry => entry.2.message entry.1).foldl PhyState.handleLocation s).locations[n]? =
      (cache[n]?).elim s.locations[n]? fun entry : LocationEntry =>
        some (entry.merge s.locations[n]?) := by
  rw [List.foldl_map]
  refine view_foldl_toList (fun (s : PhyState) n => s.locations[n]?)
    (fun entry previous => some (LocationEntry.merge entry previous)) _ cache ?_ s n
  rintro s ⟨nem, entry⟩ hmem a
  exact handleLocation_locations s nem
    (h nem entry (ExtTreeMap.mem_toList_iff_getElem?_eq_some.mp hmem)) a

/-! ## Pathlosses -/

theorem handlePathloss_getAt? (table : ExtTreeMap UInt16 (ExtTreeMap UInt64 F64)) (source : UInt16)
    {entry : PathlossEntry} (h : entry.forward.isFinite = true) (a : UInt16) (f : UInt64) :
    getAt? (handlePathloss table ⟨source.toNat, entry.forward, entry.reverse⟩) a f =
      if source = a then if f = 0 then some entry.forward.toF64 else getAt? table a f
      else getAt? table a f := by
  unfold handlePathloss
  dsimp only
  rw [u16TryFrom_toNat]
  dsimp only
  rw [if_pos (F32.isFinite_toF64 h), getAt?_insertAt]
  by_cases ha : source = a
  · by_cases hf : f = 0
    · rw [if_pos ⟨ha, hf.symm⟩, if_pos ha, if_pos hf]
    · rw [if_neg fun heq => hf heq.2.symm, if_pos ha, if_neg hf]
  · rw [if_neg fun heq => ha heq.1, if_neg ha]

/-- **What a pathloss event makes of the table.** -/
theorem foldl_handlePathloss (cache : ExtTreeMap UInt16 PathlossEntry)
    (h : ∀ (source : UInt16) (entry : PathlossEntry), cache[source]? = some entry →
      entry.forward.isFinite = true)
    (table : ExtTreeMap UInt16 (ExtTreeMap UInt64 F64)) (a : UInt16) (f : UInt64) :
    getAt? ((PathlossLoader.items cache).foldl handlePathloss table) a f =
      if f = 0 then ((cache[a]?).map fun entry : PathlossEntry => entry.forward.toF64).or (getAt? table a f)
      else getAt? table a f := by
  rw [PathlossLoader.items, List.foldl_map]
  have hview := view_foldl_toList (fun table a => getAt? table a f)
    (fun entry previous => if f = 0 then some (PathlossEntry.forward entry).toF64 else previous)
    (fun table source => handlePathloss table ⟨source.1.toNat, source.2.forward, source.2.reverse⟩)
    cache ?_ table a
  · rw [hview]
    cases cache[a]? with
    | none => simp
    | some entry => simp
  · rintro table ⟨source, entry⟩ hmem a
    exact handlePathloss_getAt? table source
      (h source entry (ExtTreeMap.mem_toList_iff_getElem?_eq_some.mp hmem)) a f

/-- What the frequencies of an entry make of the values. -/
theorem foldl_handleFrequency (entries : ExtTreeMap UInt64 F32)
    (h : ∀ (f : UInt64) (value : F32), entries[f]? = some value → value.isFinite = true)
    (values : ExtTreeMap UInt64 F64) (f : UInt64) :
    (entries.toList.foldl handleFrequency values)[f]? =
      ((entries[f]?).map F32.toF64).or values[f]? := by
  have hview := view_foldl_toList (fun (values : ExtTreeMap UInt64 F64) f => values[f]?)
    (fun value _ => some (F32.toF64 value)) handleFrequency entries ?_ values f
  · rw [hview]
    cases entries[f]? with
    | none => rfl
    | some value => rfl
  · rintro values ⟨g, value⟩ hmem a
    have hfinite := h g value (ExtTreeMap.mem_toList_iff_getElem?_eq_some.mp hmem)
    unfold handleFrequency
    dsimp only
    rw [if_pos (F32.isFinite_toF64 hfinite), ExtTreeMap.getElem?_insert]
    simp only [LawfulEqOrd.compare_eq_iff_eq]

/-- **What a pathloss event with frequencies makes of the table.** -/
theorem foldl_handlePathlossEx (cache : ExtTreeMap UInt16 (ExtTreeMap UInt64 F32))
    (h : ∀ (source : UInt16) (f : UInt64) (value : F32), getAt? cache source f = some value →
      value.isFinite = true)
    (table : ExtTreeMap UInt16 (ExtTreeMap UInt64 F64)) (a : UInt16) (f : UInt64) :
    getAt? ((PathlossExLoader.items cache).foldl handlePathlossEx table) a f =
      ((getAt? cache a f).map F32.toF64).or (getAt? table a f) := by
  rw [PathlossExLoader.items, List.foldl_map]
  have hview := view_foldl_toList (fun table a => getAt? table a f)
    (fun entries previous => ((entries[f]?).map F32.toF64).or previous)
    (fun table source => handlePathlossEx table ⟨source.1.toNat, source.2.toList⟩) cache ?_ table a
  · have hcache : getAt? cache a f = (cache[a]?).bind fun entries => entries[f]? := rfl
    rw [hview, hcache]
    cases cache[a]? with
    | none => rfl
    | some entries => rfl
  · rintro table ⟨source, entries⟩ hmem a
    have hget := ExtTreeMap.mem_toList_iff_getElem?_eq_some.mp hmem
    have hfinite : ∀ (f : UInt64) (value : F32), entries[f]? = some value → value.isFinite = true := by
      intro f value hvalue
      refine h source f value ?_
      rw [getAt?, hget, Option.bind_some]
      exact hvalue
    unfold handlePathlossEx
    dsimp only
    rw [u16TryFrom_toNat]
    dsimp only
    rw [getAt?, ExtTreeMap.getElem?_insert]
    simp only [LawfulEqOrd.compare_eq_iff_eq]
    by_cases ha : source = a
    · subst ha
      rw [if_pos rfl, if_pos rfl, Option.bind_some, foldl_handleFrequency entries hfinite, getAt?]
      cases table[source]? <;> simp
    · rw [if_neg ha, if_neg ha, getAt?]

/-! ## Publications -/

section

variable {encodedLen : Event → ℕ}

/-- The messages are short enough for the receivers. -/
def Fits (encodedLen : Event → ℕ) (messages : List Message) : Prop :=
  ∀ message ∈ messages, encodedLen message.2 ≤ maxEventLength

/-- **Messages for single NEMs**: each receiver gets the one that is for it. -/
theorem foldl_deliver {β : Type} (t : ExtTreeMap UInt16 β) {message : UInt16 × β → Option Message}
    {f : β → Receiver → Receiver} (hzero : ∀ e ∈ t.toList, e.1 ≠ 0)
    (hnone : ∀ e ∈ t.toList, message e = none → ∀ r, f e.2 r = r)
    (hsome : ∀ e ∈ t.toList, ∀ m, message e = some m →
      m.1 = e.1 ∧ ∀ r, builtinEvent encodedLen r m.2 = f e.2 r)
    (receivers : UInt16 → Receiver) (nem : UInt16) :
    (t.toList.filterMap message).foldl (deliver encodedLen) receivers nem =
      (t[nem]?).elim (receivers nem) fun b => f b (receivers nem) := by
  rw [List.foldl_filterMap]
  refine view_foldl_toList (fun receivers nem => receivers nem) f _ t ?_ receivers nem
  intro receivers e he a
  cases hmessage : message e with
  | none =>
      dsimp only
      rw [hnone e he hmessage, ite_self]
  | some m =>
      obtain ⟨htarget, hevent⟩ := hsome e he m hmessage
      dsimp only
      rw [deliver, hevent, htarget]
      by_cases ha : e.1 = a
      · rw [if_pos (Or.inr ha), if_pos ha]
      · rw [if_neg (not_or.mpr ⟨hzero e he, ha⟩), if_neg ha]

theorem builtinEvent_of_fits {r : Receiver} {event : Event} (h : encodedLen event ≤ maxEventLength) :
    builtinEvent encodedLen r event = r.handle event :=
  if_neg (not_lt.mpr h)

/-- The locations that are published reach every receiver. -/
theorem deliver_locations {cache : ExtTreeMap UInt16 LocationEntry}
    (hvalid : ∀ (nem : UInt16) (entry : LocationEntry), cache[nem]? = some entry → entry.Valid)
    (receivers : UInt16 → Receiver) (r : UInt16) :
    let locations := cache.toList.map fun entry => entry.2.message entry.1
    let messages : List Message := if locations.isEmpty then [] else [(0, .location locations)]
    Fits encodedLen messages →
    (∀ n : UInt16, (messages.foldl (deliver encodedLen) receivers r).phy.locations[n]? =
      (cache[n]?).elim (receivers r).phy.locations[n]? fun entry : LocationEntry =>
        some (entry.merge (receivers r).phy.locations[n]?)) ∧
      (messages.foldl (deliver encodedLen) receivers r).pathloss = (receivers r).pathloss := by
  intro locations messages hfits
  have hdelivered : messages.foldl (deliver encodedLen) receivers r =
      (receivers r).handle (.location locations) := by
    by_cases hempty : locations.isEmpty = true
    · simp only [messages, if_pos hempty, List.isEmpty_iff.mp hempty, List.foldl_nil, Receiver.handle]
    · simp only [messages, if_neg hempty, List.foldl_cons, List.foldl_nil, deliver, true_or, if_true]
      exact builtinEvent_of_fits (hfits (0, .location locations) (by simp [messages, hempty]))
  rw [hdelivered]
  exact ⟨foldl_handleLocation cache hvalid (receivers r).phy, rfl⟩

theorem PathlossLoader.message_eq_none {dst : UInt16 × ExtTreeMap UInt16 PathlossEntry}
    (h : message dst = none) (r : Receiver) : r.handle (.pathloss (items dst.2)) = r := by
  rw [message, ite_eq_left_iff] at h
  by_cases hempty : (items dst.2).isEmpty = true
  · rw [List.isEmpty_iff.mp hempty]
    rfl
  · cases h hempty

theorem PathlossLoader.message_eq_some {dst : UInt16 × ExtTreeMap UInt16 PathlossEntry} {m : Message}
    (h : message dst = some m) : m = (dst.1, .pathloss (items dst.2)) := by
  unfold message at h
  split at h
  · cases h
  · exact (Option.some.inj h).symm

theorem PathlossExLoader.message_eq_none {dst : UInt16 × ExtTreeMap UInt16 (ExtTreeMap UInt64 F32)}
    (h : message dst = none) (r : Receiver) : r.handle (.pathlossEx (items dst.2)) = r := by
  rw [message, ite_eq_left_iff] at h
  by_cases hempty : (items dst.2).isEmpty = true
  · rw [List.isEmpty_iff.mp hempty]
    rfl
  · cases h hempty

theorem PathlossExLoader.message_eq_some {dst : UInt16 × ExtTreeMap UInt16 (ExtTreeMap UInt64 F32)}
    {m : Message} (h : message dst = some m) : m = (dst.1, .pathlossEx (items dst.2)) := by
  unfold message at h
  split at h
  · cases h
  · exact (Option.some.inj h).symm

/-- The pathlosses that are published reach their receivers. -/
theorem deliver_pathlosses {cache : ExtTreeMap UInt16 (ExtTreeMap UInt16 PathlossEntry)}
    (hzero : ∀ e ∈ cache.toList, e.1 ≠ 0)
    (hfinite : ∀ (dst source : UInt16) (entry : PathlossEntry), getAt? cache dst source = some entry →
      entry.forward.isFinite = true)
    (receivers : UInt16 → Receiver)
    (hfits : Fits encodedLen (cache.toList.filterMap PathlossLoader.message)) (r : UInt16) :
    ((cache.toList.filterMap PathlossLoader.message).foldl (deliver encodedLen) receivers r).phy =
        (receivers r).phy ∧
      ∀ source f, ((cache.toList.filterMap PathlossLoader.message).foldl
          (deliver encodedLen) receivers r).pathlossDb source f =
        if f = 0 then ((getAt? cache r source).map fun entry : PathlossEntry => entry.forward.toF64).or
          ((receivers r).pathlossDb source f)
        else (receivers r).pathlossDb source f := by
  rw [foldl_deliver (f := fun sources r => r.handle (.pathloss (PathlossLoader.items sources))) cache hzero
    (fun e _ => PathlossLoader.message_eq_none)]
  · have hcache : ∀ source, getAt? cache r source = (cache[r]?).bind fun sources => sources[source]? :=
      fun _ => rfl
    simp only [hcache]
    cases hget : cache[r]? with
    | none => simp
    | some sources =>
        refine ⟨rfl, fun source f => ?_⟩
        refine foldl_handlePathloss sources (fun source entry hentry => hfinite r source entry ?_) _ source f
        rw [hcache, hget]
        exact hentry
  · intro e he m hmessage
    have hlength := hfits m (List.mem_filterMap.mpr ⟨e, he, hmessage⟩)
    rw [PathlossLoader.message_eq_some hmessage] at hlength ⊢
    exact ⟨rfl, fun r => builtinEvent_of_fits hlength⟩

/-- The pathlosses at frequencies that are published reach their receivers. -/
theorem deliver_pathlossesEx {cache : PathlossExCache} (hzero : ∀ e ∈ cache.toList, e.1 ≠ 0)
    (hfinite : ∀ (dst source : UInt16) (f : UInt64) (value : F32),
      ((cache[dst]?).bind fun sources => getAt? sources source f) = some value → value.isFinite = true)
    (receivers : UInt16 → Receiver)
    (hfits : Fits encodedLen (cache.toList.filterMap PathlossExLoader.message)) (r : UInt16) :
    ((cache.toList.filterMap PathlossExLoader.message).foldl (deliver encodedLen) receivers r).phy =
        (receivers r).phy ∧
      ∀ source f, ((cache.toList.filterMap PathlossExLoader.message).foldl
          (deliver encodedLen) receivers r).pathlossDb source f =
        (((cache[r]?).bind fun sources => getAt? sources source f).map F32.toF64).or
          ((receivers r).pathlossDb source f) := by
  rw [foldl_deliver (f := fun sources r => r.handle (.pathlossEx (PathlossExLoader.items sources))) cache
    hzero (fun e _ => PathlossExLoader.message_eq_none)]
  · cases hget : cache[r]? with
    | none => simp
    | some sources =>
        refine ⟨rfl, fun source f => ?_⟩
        refine foldl_handlePathlossEx sources (fun source f value hvalue => hfinite r source f value ?_) _
          source f
        rw [hget]
        exact hvalue
  · intro e he m hmessage
    have hlength := hfits m (List.mem_filterMap.mpr ⟨e, he, hmessage⟩)
    rw [PathlossExLoader.message_eq_some hmessage] at hlength ⊢
    exact ⟨rfl, fun r => builtinEvent_of_fits hlength⟩

end

end Emane.Eel
