import Mathlib
import Emane.Lib.Bytes
import Emane.Lib.Run
import Emane.PluginApi.Tables

set_option autoImplicit false

/-! # TDMA schedules

`parseSchedule` builds a schedule from an event: a full event brings a structure, an update changes
slots of the schedule that is installed. It may reject the event, and the model also keeps the panics
that indexing out of range would be.

Every schedule that is installed is well formed (`Schedule.WellFormed`, `parseSchedule_wellFormed`),
so that `ValidSchedule` carries it. `parseSchedule_slots` says which entry of an event decides each slot,
and `parseSchedule_asked_iff` when this is the last explicit one.
-/

namespace Emane.Tdma

open Emane.Lib
open Emane.PluginApi (F64)

/-! ## Schedule events -/

structure ScheduleTx where
  frequencyHz : Option ℕ
  dataRateBps : Option ℕ
  serviceClass : Option ℕ
  powerDbm : Option F64
  destination : Option ℕ

structure ScheduleRx where
  frequencyHz : Option ℕ

structure ScheduleSlot where
  index : ℕ
  slotType : ℤ
  tx : Option ScheduleTx
  rx : Option ScheduleRx

structure ScheduleFrame where
  index : ℕ
  frequencyHz : Option ℕ
  dataRateBps : Option ℕ
  serviceClass : Option ℕ
  powerDbm : Option F64
  slots : List ScheduleSlot

structure ScheduleStructure where
  slotsPerFrame : ℕ
  framesPerMultiframe : ℕ
  slotDurationMicroseconds : ℕ
  slotOverheadMicroseconds : ℕ
  bandwidthHz : ℕ

structure ScheduleEvent where
  frames : List ScheduleFrame
  structure? : Option ScheduleStructure
  frequencyHz : Option ℕ
  dataRateBps : Option ℕ
  serviceClass : Option ℕ
  powerDbm : Option F64

inductive SlotType
  | tx
  | rx
  | idle

/-- `SlotType::try_from` -/
def SlotType.tryFrom (value : ℤ) : Option SlotType :=
  if value = 1 then some .tx
  else if value = 2 then some .rx
  else if value = 3 then some .idle
  else none

/-! ## Schedules -/

inductive Slot
  | tx (frequencyHz dataRateBps serviceClass : ℕ) (powerDbm : F64) (destination : UInt16)
  | rx (frequencyHz : ℕ)
  | idle
  deriving DecidableEq

structure Schedule where
  slotsPerFrame : ℕ
  framesPerMultiframe : ℕ
  slotDurationUs : ℕ
  overheadUs : ℕ
  bandwidthHz : ℕ
  slots : List Slot
  deriving DecidableEq

namespace Schedule

/-- `cycle_slots` -/
def cycleSlots (schedule : Schedule) : ℕ := schedule.slotsPerFrame * schedule.framesPerMultiframe

/-- `slot`; `none` stands for a panic, of the remainder by zero or of the index. -/
def slot? (schedule : Schedule) (absolute : ℕ) : Option Slot :=
  if schedule.cycleSlots = 0 then none else schedule.slots[absolute % schedule.cycleSlots]?

/-- `absolute_slot`; `none` stands for the panic of a division by zero. -/
def absoluteSlot? (schedule : Schedule) (timeUs : ℤ) : Option ℕ :=
  if schedule.slotDurationUs = 0 then none else some (timeUs.toNat / schedule.slotDurationUs)

/-- What the parser ensures of a transmit slot. -/
def SlotOk : Slot → Prop
  | .tx frequencyHz dataRateBps serviceClass _ _ =>
      frequencyHz ≠ 0 ∧ dataRateBps ≠ 0 ∧ serviceClass ≤ 3
  | .rx _ => True
  | .idle => True

/-- What the parser ensures of a schedule. -/
structure WellFormed (schedule : Schedule) : Prop where
  length_slots : schedule.slots.length = schedule.slotsPerFrame * schedule.framesPerMultiframe
  cycle_pos : 0 < schedule.slotsPerFrame * schedule.framesPerMultiframe
  overhead_lt : schedule.overheadUs < schedule.slotDurationUs
  slots_ok : ∀ slot ∈ schedule.slots, SlotOk slot

end Schedule

/-! ## Well-formed schedules -/

/-- A schedule as it can be installed. -/
structure ValidSchedule extends Schedule where
  wellFormed : toSchedule.WellFormed
  deriving DecidableEq

namespace ValidSchedule

/-- `slot` -/
def slot (schedule : ValidSchedule) (absolute : ℕ) : Slot :=
  schedule.slots.get ⟨absolute % schedule.cycleSlots, by
    rw [schedule.wellFormed.length_slots]
    exact Nat.mod_lt _ schedule.wellFormed.cycle_pos⟩

theorem slot?_eq (schedule : ValidSchedule) (absolute : ℕ) :
    schedule.slot? absolute = some (schedule.slot absolute) := by
  have hpos : schedule.cycleSlots ≠ 0 := schedule.wellFormed.cycle_pos.ne'
  rw [Schedule.slot?, if_neg hpos]
  exact List.getElem?_eq_getElem _

/-- `absolute_slot` -/
def absoluteSlot (schedule : ValidSchedule) (timeUs : ℤ) : ℕ := timeUs.toNat / schedule.slotDurationUs

theorem absoluteSlot?_eq (schedule : ValidSchedule) (timeUs : ℤ) :
    schedule.absoluteSlot? timeUs = some (schedule.absoluteSlot timeUs) := by
  have hpos : schedule.slotDurationUs ≠ 0 := (Nat.zero_lt_of_lt schedule.wellFormed.overhead_lt).ne'
  rw [Schedule.absoluteSlot?, if_neg hpos]
  rfl

/-- `slot_start`: the 64-bit product saturates, and then the time does. -/
def slotStart (schedule : ValidSchedule) (absolute : ℕ) : ℤ :=
  min (min (absolute * schedule.slotDurationUs) (2 ^ 64 - 1) : ℕ) (2 ^ 63 - 1)

/-- The bytes that fit into a slot of the schedule at a data rate. -/
def capacity (schedule : ValidSchedule) (dataRateBps : ℕ) : ℕ :=
  min (dataRateBps * (schedule.slotDurationUs - schedule.overheadUs) / 8000000) (2 ^ 64 - 1)

end ValidSchedule

/-! ## Parsing -/

/-- Why no schedule comes out: the event is rejected with a message, or the code panics. -/
inductive ScheduleFailure
  | rejected (message : String)
  | panicked
  deriving DecidableEq

def reject {α : Type} (message : String) : Except ScheduleFailure α := .error (.rejected message)

/-- Writing a slot; out of range the code panics. -/
def writeSlot (slots : List Slot) (index : ℕ) (slot : Slot) : Except ScheduleFailure (List Slot) :=
  if index < slots.length then .ok (slots.set index slot) else .error .panicked

/-- What an entry of a frame takes from its frame and from the event. -/
structure FrameDefaults where
  frequency : Option ℕ
  rate : Option ℕ
  serviceClass : ℕ
  power : F64

def frameDefaults (event : ScheduleEvent) (frame : ScheduleFrame) : FrameDefaults where
  frequency := frame.frequencyHz.or event.frequencyHz
  rate := frame.dataRateBps.or event.dataRateBps
  serviceClass := (frame.serviceClass.or event.serviceClass).getD 0
  power := (frame.powerDbm.or event.powerDbm).getD ⟨0⟩

/-- The slot an entry describes. -/
def parseSlot (defaults : FrameDefaults) (slot : ScheduleSlot) : Except ScheduleFailure Slot :=
  match SlotType.tryFrom slot.slotType with
  | some .tx =>
      let tx := slot.tx.getD ⟨none, none, none, none, none⟩
      let frequencyHz := (tx.frequencyHz.or defaults.frequency).getD 0
      let dataRateBps := (tx.dataRateBps.or defaults.rate).getD 0
      let serviceClass := tx.serviceClass.getD defaults.serviceClass
      let powerDbm := tx.powerDbm.getD defaults.power
      -- a destination of zero means no destination filter
      let destination := tx.destination.getD 0
      if frequencyHz = 0 ∨ dataRateBps = 0 ∨ serviceClass > 3 ∨ destination > 65535 ∨
          powerDbm.isFinite = false then
        reject "invalid TDMA transmit slot"
      else
        .ok (.tx frequencyHz dataRateBps serviceClass powerDbm (UInt16.ofNat destination))
  | some .rx =>
      let frequencyHz := ((slot.rx.bind ScheduleRx.frequencyHz).or defaults.frequency).getD 0
      if frequencyHz = 0 then reject "invalid TDMA receive slot" else .ok (.rx frequencyHz)
  | some .idle => .ok .idle
  | none => reject "invalid TDMA slot type"

/-- One entry of a frame. -/
def parseEntry (schedule : Schedule) (frameIndex : ℕ) (defaults : FrameDefaults) (slots : List Slot)
    (slot : ScheduleSlot) : Except ScheduleFailure (List Slot) := do
  if slot.index ≥ schedule.slotsPerFrame then
    reject "TDMA slot index is out of range"
  else
    let value ← parseSlot defaults slot
    writeSlot slots (frameIndex * schedule.slotsPerFrame + slot.index) value

/-- In a full schedule the slots that a frame does not list receive. -/
def fillFrame (full : Bool) (schedule : Schedule) (frame : ScheduleFrame) (defaults : FrameDefaults)
    (slots : List Slot) : Except ScheduleFailure (List Slot) :=
  let listed := frame.slots.map ScheduleSlot.index
  if full = true ∧ listed.dedup.length < schedule.slotsPerFrame then
    match defaults.frequency.filter (· ≠ 0) with
    | none => reject "undefined TDMA receive slot has no frequency"
    | some frequencyHz =>
        (List.range schedule.slotsPerFrame).foldlM (fun slots index =>
          if index ∈ listed then .ok slots
          else writeSlot slots (frame.index * schedule.slotsPerFrame + index) (.rx frequencyHz)) slots
  else .ok slots

/-- One frame of an event. -/
def parseFrame (event : ScheduleEvent) (full : Bool) (schedule : Schedule) (slots : List Slot)
    (frame : ScheduleFrame) : Except ScheduleFailure (List Slot) := do
  if frame.index ≥ schedule.framesPerMultiframe then
    reject "TDMA frame index is out of range"
  else
    let defaults := frameDefaults event frame
    let slots ← fillFrame full schedule frame defaults slots
    frame.slots.foldlM (parseEntry schedule frame.index defaults) slots

/-- The schedule with a given structure. -/
def ScheduleStructure.schedule (given : ScheduleStructure) (slots : List Slot) : Schedule where
  slotsPerFrame := given.slotsPerFrame
  framesPerMultiframe := given.framesPerMultiframe
  slotDurationUs := given.slotDurationMicroseconds
  overheadUs := given.slotOverheadMicroseconds
  bandwidthHz := given.bandwidthHz
  slots := slots

/-- The schedule that the frames of an event change: a new one without transmit or receive slots, or
the one that is installed. -/
def baseSchedule (event : ScheduleEvent) (current : Option Schedule) :
    Except ScheduleFailure Schedule :=
  match event.structure? with
  | some given =>
      if given.slotsPerFrame = 0 ∨ given.framesPerMultiframe = 0 ∨
          given.slotDurationMicroseconds = 0 ∨
          given.slotOverheadMicroseconds ≥ given.slotDurationMicroseconds ∨
          given.bandwidthHz = 0 then
        reject "invalid TDMA slot structure"
      else
        let count := given.slotsPerFrame * given.framesPerMultiframe
        if count ≤ 1000000 then .ok (given.schedule (List.replicate count .idle))
        else reject "TDMA schedule is too large"
  | none =>
      match current with
      | some schedule => .ok schedule
      | none => reject "schedule update received before full schedule"

/-- `parse_schedule` for a decoded event: the schedule, and whether the event was a full one. -/
def parseSchedule (event : ScheduleEvent) (current : Option Schedule) :
    Except ScheduleFailure (Schedule × Bool) := do
  let full := event.structure?.isSome
  let schedule ← baseSchedule event current
  let slots ← event.frames.foldlM (parseFrame event full schedule) schedule.slots
  return ({ schedule with slots }, full)

/-! ## Where a slot stands -/

/-- The position of slot `s` of frame `f`. -/
def cell (schedule : Schedule) (f s : ℕ) : ℕ := f * schedule.slotsPerFrame + s

theorem cell_inj {schedule : Schedule} {f s f' s' : ℕ} (hs : s < schedule.slotsPerFrame)
    (hs' : s' < schedule.slotsPerFrame) : cell schedule f s = cell schedule f' s' ↔ f = f' ∧ s = s' := by
  unfold cell
  constructor
  · intro h
    have hpos : 0 < schedule.slotsPerFrame := by omega
    have hf := congrArg (· / schedule.slotsPerFrame) h
    simp only [Nat.mul_comm _ schedule.slotsPerFrame, Nat.mul_add_div hpos, Nat.div_eq_of_lt hs,
      Nat.div_eq_of_lt hs', Nat.add_zero] at hf
    subst hf
    exact ⟨rfl, Nat.add_left_cancel h⟩
  · rintro ⟨rfl, rfl⟩
    rfl

theorem cell_lt {schedule : Schedule} (h : schedule.WellFormed) {f s : ℕ}
    (hf : f < schedule.framesPerMultiframe) (hs : s < schedule.slotsPerFrame) :
    cell schedule f s < schedule.slots.length := by
  rw [h.length_slots, cell]
  have hle : (f + 1) * schedule.slotsPerFrame ≤ schedule.framesPerMultiframe * schedule.slotsPerFrame :=
    Nat.mul_le_mul_right _ hf
  rw [Nat.mul_comm schedule.slotsPerFrame]
  rw [Nat.succ_mul] at hle
  omega

/-- Slot `s` of frame `f`. -/
def Schedule.slotAt (schedule : Schedule) (f s : ℕ) : Option Slot := schedule.slots[cell schedule f s]?

theorem writeSlot_ok {slots slots' : List Slot} {index : ℕ} {slot : Slot}
    (h : writeSlot slots index slot = .ok slots') :
    index < slots.length ∧ slots' = slots.set index slot := by
  unfold writeSlot at h
  split at h
  · next hlt => exact ⟨hlt, (Except.ok.inj h).symm⟩
  · cases h

/-- A write changes one cell. -/
theorem getElem?_writeSlot {schedule : Schedule} {slots slots' : List Slot} {f s f' s' : ℕ} {slot : Slot}
    (h : writeSlot slots (cell schedule f s) slot = .ok slots') (hs : s < schedule.slotsPerFrame)
    (hs' : s' < schedule.slotsPerFrame) :
    slots'[cell schedule f' s']? =
      if f' = f ∧ s' = s then some slot else slots[cell schedule f' s']? := by
  obtain ⟨hlt, rfl⟩ := writeSlot_ok h
  rw [List.getElem?_set]
  by_cases heq : f' = f ∧ s' = s
  · rw [if_pos heq, if_pos ((cell_inj hs hs').mpr ⟨heq.1.symm, heq.2.symm⟩), if_pos hlt]
  · rw [if_neg heq, if_neg]
    intro hcell
    obtain ⟨rfl, rfl⟩ := (cell_inj hs hs').mp hcell
    exact heq ⟨rfl, rfl⟩

/-! ## What a frame of an event does -/

/-- The last entry for slot `s` among the entries of a frame. -/
def lastEntry (entries : List ScheduleSlot) (s : ℕ) : Option ScheduleSlot :=
  entries.reverse.find? fun entry => entry.index = s

theorem lastEntry_concat (entries : List ScheduleSlot) (entry : ScheduleSlot) (s : ℕ) :
    lastEntry (entries ++ [entry]) s = if entry.index = s then some entry else lastEntry entries s := by
  unfold lastEntry
  rw [List.reverse_append, List.reverse_singleton, List.singleton_append, List.find?_cons]
  by_cases h : entry.index = s
  · simp [h]
  · simp [h]

theorem parseEntry_ok {schedule : Schedule} {f : ℕ} {defaults : FrameDefaults} {slots slots' : List Slot}
    {entry : ScheduleSlot} (h : parseEntry schedule f defaults slots entry = .ok slots') :
    entry.index < schedule.slotsPerFrame ∧ ∃ value, parseSlot defaults entry = .ok value ∧
      writeSlot slots (cell schedule f entry.index) value = .ok slots' := by
  unfold parseEntry at h
  split at h
  · cases h
  · next hlt => exact ⟨not_le.mp hlt, exists_of_bind_eq_ok h⟩

/-- The entries of a frame set the slots they list, the last entry of a slot wins. -/
theorem parseEntries_ok {schedule : Schedule} {f : ℕ} {defaults : FrameDefaults}
    {slots : List Slot} (entries : List ScheduleSlot) (slots' : List Slot)
    (h : entries.foldlM (parseEntry schedule f defaults) slots = .ok slots') :
    slots'.length = slots.length ∧ (∀ entry ∈ entries, entry.index < schedule.slotsPerFrame) ∧
      ∀ f' s', s' < schedule.slotsPerFrame → slots'[cell schedule f' s']? =
        if f' = f then
          match lastEntry entries s' with
          | some entry => (parseSlot defaults entry).toOption
          | none => slots[cell schedule f' s']?
        else slots[cell schedule f' s']? := by
  refine foldlM_ok_induction (motive := fun entries slots' => slots'.length = slots.length ∧
    (∀ entry ∈ entries, entry.index < schedule.slotsPerFrame) ∧
      ∀ f' s', s' < schedule.slotsPerFrame → slots'[cell schedule f' s']? =
        if f' = f then
          match lastEntry entries s' with
          | some entry => (parseSlot defaults entry).toOption
          | none => slots[cell schedule f' s']?
        else slots[cell schedule f' s']?) ?_ ?_ entries slots' h
  · refine ⟨rfl, by simp, fun f' s' _ => ?_⟩
    simp [lastEntry]
  · rintro entries entry x y ⟨hlen, hindex, hcells⟩ hentry
    obtain ⟨hlt, value, hvalue, hwrite⟩ := parseEntry_ok hentry
    refine ⟨?_, ?_, fun f' s' hs' => ?_⟩
    · rw [(writeSlot_ok hwrite).2, List.length_set, hlen]
    · intro e he
      rcases List.mem_append.mp he with he | he
      · exact hindex e he
      · rw [List.mem_singleton.mp he]
        exact hlt
    · rw [getElem?_writeSlot hwrite hlt hs', lastEntry_concat, hcells f' s' hs']
      by_cases hf : f' = f
      · by_cases hs : entry.index = s'
        · simp [hf, hs, hvalue, Except.toOption]
        · simp [hf, hs, Ne.symm hs]
      · simp [hf]

/-- The loop that fills a frame sets the slots it comes to that are not listed. -/
theorem fillLoop_ok {schedule : Schedule} {f frequencyHz : ℕ} {listed : List ℕ} {slots : List Slot}
    (indices : List ℕ) (slots' : List Slot)
    (h : indices.foldlM (fun slots index =>
      if index ∈ listed then .ok slots
      else writeSlot slots (cell schedule f index) (.rx frequencyHz)) slots = .ok slots') :
    (∀ index ∈ indices, index < schedule.slotsPerFrame) →
    slots'.length = slots.length ∧ ∀ f' s', s' < schedule.slotsPerFrame →
      slots'[cell schedule f' s']? =
        if f' = f ∧ s' ∈ indices ∧ s' ∉ listed then some (.rx frequencyHz)
        else slots[cell schedule f' s']? := by
  refine foldlM_ok_induction (motive := fun indices slots' =>
    (∀ index ∈ indices, index < schedule.slotsPerFrame) →
    slots'.length = slots.length ∧ ∀ f' s', s' < schedule.slotsPerFrame →
      slots'[cell schedule f' s']? =
        if f' = f ∧ s' ∈ indices ∧ s' ∉ listed then some (.rx frequencyHz)
        else slots[cell schedule f' s']?) ?_ ?_ indices slots' h
  · exact fun _ => ⟨rfl, fun f' s' _ => by simp⟩
  · intro indices index x y ih hstep hrange
    obtain ⟨hlen, hcells⟩ := ih fun i hi => hrange i (List.mem_append_left _ hi)
    have hindex : index < schedule.slotsPerFrame := hrange index (by simp)
    split at hstep
    · next hin =>
        cases hstep
        refine ⟨hlen, fun f' s' hs' => ?_⟩
        rw [hcells f' s' hs']
        have hiff : (f' = f ∧ s' ∈ indices ∧ s' ∉ listed) ↔
            (f' = f ∧ s' ∈ indices ++ [index] ∧ s' ∉ listed) := by
          simp only [List.mem_append, List.mem_singleton]
          refine and_congr_right fun _ => and_congr_left fun hout => ?_
          exact ⟨Or.inl, fun hmem => hmem.resolve_right fun heq => hout (heq ▸ hin)⟩
        simp only [hiff]
    · next hout =>
        refine ⟨by rw [(writeSlot_ok hstep).2, List.length_set, hlen], fun f' s' hs' => ?_⟩
        rw [getElem?_writeSlot hstep hindex hs', hcells f' s' hs']
        by_cases heq : f' = f ∧ s' = index
        · rw [if_pos heq, if_pos ⟨heq.1, by simp [heq.2], by rw [heq.2]; exact hout⟩]
        · rw [if_neg heq]
          have hiff : (f' = f ∧ s' ∈ indices ∧ s' ∉ listed) ↔
              (f' = f ∧ s' ∈ indices ++ [index] ∧ s' ∉ listed) := by
            simp only [List.mem_append, List.mem_singleton]
            refine and_congr_right fun hf => and_congr_left fun _ => ?_
            exact ⟨Or.inl, fun hmem => hmem.resolve_right fun hs => heq ⟨hf, hs⟩⟩
          simp only [hiff]

/-- What a frame of an event makes of its slot `s`: the last entry for it decides, and a slot that is
not listed keeps `old`, or receives if the event is a full one. -/
def frameSlot (event : ScheduleEvent) (full : Bool) (frame : ScheduleFrame) (s : ℕ)
    (old : Option Slot) : Option Slot :=
  match lastEntry frame.slots s with
  | some entry => (parseSlot (frameDefaults event frame) entry).toOption
  | none => if full then (frameDefaults event frame).frequency.map .rx else old

theorem lastEntry_eq_none {entries : List ScheduleSlot} {s : ℕ} :
    lastEntry entries s = none ↔ s ∉ entries.map ScheduleSlot.index := by
  simp [lastEntry, List.find?_eq_none]

/-- A frame whose listed slots are all in range and as many as it has lists every slot. -/
theorem mem_of_dedup_length {listed : List ℕ} {n s : ℕ} (hrange : ∀ i ∈ listed, i < n)
    (hlen : n ≤ listed.dedup.length) (hs : s < n) : s ∈ listed := by
  have hsub : listed.toFinset ⊆ Finset.range n := by
    intro i hi
    exact Finset.mem_range.mpr (hrange i (List.mem_toFinset.mp hi))
  have heq : listed.toFinset = Finset.range n := by
    refine Finset.eq_of_subset_of_card_le hsub ?_
    rw [Finset.card_range, List.card_toFinset]
    exact hlen
  exact List.mem_toFinset.mp (heq ▸ Finset.mem_range.mpr hs)

/-- The slots that a frame of a full event does not list receive. -/
theorem fillFrame_ok {full : Bool} {schedule : Schedule} {frame : ScheduleFrame}
    {defaults : FrameDefaults} {slots slots' : List Slot}
    (h : fillFrame full schedule frame defaults slots = .ok slots')
    (hrange : ∀ i ∈ frame.slots.map ScheduleSlot.index, i < schedule.slotsPerFrame) :
    slots'.length = slots.length ∧ ∀ f s, s < schedule.slotsPerFrame → slots'[cell schedule f s]? =
      if f = frame.index ∧ s ∉ frame.slots.map ScheduleSlot.index then
        if full then defaults.frequency.map .rx else slots[cell schedule f s]?
      else slots[cell schedule f s]? := by
  unfold fillFrame at h
  dsimp only at h
  split at h
  · next hfull =>
      split at h
      · cases h
      next frequencyHz hfrequency =>
      have hdefault : defaults.frequency = some frequencyHz := (Option.filter_eq_some_iff.mp hfrequency).1
      obtain ⟨hlen, hcells⟩ := fillLoop_ok _ slots' h fun i hi => List.mem_range.mp hi
      refine ⟨hlen, fun f s hs => ?_⟩
      rw [hcells f s hs]
      simp only [List.mem_range.mpr hs, true_and, hfull.1, if_true, hdefault, Option.map_some]
  · next hnot =>
      cases h
      refine ⟨rfl, fun f s hs => ?_⟩
      split
      · next hunlisted =>
          split
          · next hfull =>
              -- a frame of a full event that is not filled lists every slot
              refine absurd (mem_of_dedup_length hrange ?_ hs) hunlisted.2
              exact not_lt.mp fun hlt => hnot ⟨hfull, hlt⟩
          · rfl
      · rfl

/-- **What a frame of an accepted event does**: it changes the slots of its frame only. -/
theorem parseFrame_ok {event : ScheduleEvent} {full : Bool} {schedule : Schedule}
    {slots slots' : List Slot} {frame : ScheduleFrame}
    (h : parseFrame event full schedule slots frame = .ok slots') :
    frame.index < schedule.framesPerMultiframe ∧ slots'.length = slots.length ∧
      ∀ f s, s < schedule.slotsPerFrame → slots'[cell schedule f s]? =
        if f = frame.index then frameSlot event full frame s slots[cell schedule f s]?
        else slots[cell schedule f s]? := by
  unfold parseFrame at h
  split at h
  · cases h
  next hframe =>
  obtain ⟨x, hfill, hentries⟩ := exists_of_bind_eq_ok h
  obtain ⟨hlen, hrange, hcells⟩ := parseEntries_ok frame.slots slots' hentries
  obtain ⟨hlen', hfilled⟩ := fillFrame_ok hfill
    (List.forall_mem_map.mpr hrange)
  refine ⟨not_le.mp hframe, hlen.trans hlen', fun f s hs => ?_⟩
  rw [hcells f s hs, hfilled f s hs, frameSlot]
  by_cases hf : f = frame.index
  · simp only [if_pos hf]
    cases hlast : lastEntry frame.slots s with
    | some entry => rfl
    | none => simp [hf, lastEntry_eq_none.mp hlast]
  · simp [hf]

/-! ## What an event does -/

/-- The last entry of an event for frame `f`. -/
def lastFrame (frames : List ScheduleFrame) (f : ℕ) : Option ScheduleFrame :=
  frames.reverse.find? fun frame => frame.index = f

/-- The last entry of an event for slot `s` of frame `f`, with the frame it stands in. -/
def lastListed (frames : List ScheduleFrame) (f s : ℕ) : Option (ScheduleFrame × ScheduleSlot) :=
  (frames.flatMap fun frame => frame.slots.map (frame, ·)).reverse.find?
    fun p => p.1.index = f ∧ p.2.index = s

theorem lastFrame_concat (frames : List ScheduleFrame) (frame : ScheduleFrame) (f : ℕ) :
    lastFrame (frames ++ [frame]) f = if frame.index = f then some frame else lastFrame frames f := by
  unfold lastFrame
  rw [List.reverse_append, List.reverse_singleton, List.singleton_append, List.find?_cons]
  by_cases h : frame.index = f
  · simp [h]
  · simp [h]

theorem lastListed_concat (frames : List ScheduleFrame) (frame : ScheduleFrame) (f s : ℕ) :
    lastListed (frames ++ [frame]) f s =
      if frame.index = f then
        match lastEntry frame.slots s with
        | some entry => some (frame, entry)
        | none => lastListed frames f s
      else lastListed frames f s := by
  unfold lastListed
  rw [List.flatMap_append, List.flatMap_singleton, List.reverse_append, List.find?_append,
    ← List.map_reverse, List.find?_map]
  by_cases h : frame.index = f
  · have hentry : frame.slots.reverse.find? ((fun p : ScheduleFrame × ScheduleSlot =>
        decide (p.1.index = f ∧ p.2.index = s)) ∘ (frame, ·)) = lastEntry frame.slots s := by
      unfold lastEntry
      congr 1
      funext entry
      simp [h]
    rw [hentry, if_pos h]
    cases lastEntry frame.slots s with
    | none => rfl
    | some entry => rfl
  · have hnone : frame.slots.reverse.find? ((fun p : ScheduleFrame × ScheduleSlot =>
        decide (p.1.index = f ∧ p.2.index = s)) ∘ (frame, ·)) = none := by
      rw [List.find?_eq_none]
      simp [h]
    rw [hnone, if_neg h]
    rfl

/-- In a full event the last entry for a frame decides its slots. -/
theorem parseFrames_full {event : ScheduleEvent} {schedule : Schedule} {slots : List Slot}
    (frames : List ScheduleFrame) (slots' : List Slot)
    (h : frames.foldlM (parseFrame event true schedule) slots = .ok slots') :
    ∀ f s, s < schedule.slotsPerFrame → slots'[cell schedule f s]? =
      match lastFrame frames f with
      | some frame => frameSlot event true frame s none
      | none => slots[cell schedule f s]? := by
  refine foldlM_ok_induction (motive := fun frames slots' =>
    ∀ f s, s < schedule.slotsPerFrame → slots'[cell schedule f s]? =
      match lastFrame frames f with
      | some frame => frameSlot event true frame s none
      | none => slots[cell schedule f s]?) ?_ ?_ frames slots' h
  · exact fun f s _ => by simp [lastFrame]
  · intro frames frame x y ih hframe f s hs
    rw [(parseFrame_ok hframe).2.2 f s hs, lastFrame_concat, ih f s hs]
    by_cases hf : f = frame.index
    · -- in a full event no slot of the frame keeps its value
      rw [if_pos hf, if_pos hf.symm]
      simp only [frameSlot, if_true]
    · rw [if_neg hf, if_neg (Ne.symm hf)]

/-- In an update the last entry for a slot decides it. -/
theorem parseFrames_update {event : ScheduleEvent} {schedule : Schedule} {slots : List Slot}
    (frames : List ScheduleFrame) (slots' : List Slot)
    (h : frames.foldlM (parseFrame event false schedule) slots = .ok slots') :
    ∀ f s, s < schedule.slotsPerFrame → slots'[cell schedule f s]? =
      match lastListed frames f s with
      | some (frame, entry) => (parseSlot (frameDefaults event frame) entry).toOption
      | none => slots[cell schedule f s]? := by
  refine foldlM_ok_induction (motive := fun frames slots' =>
    ∀ f s, s < schedule.slotsPerFrame → slots'[cell schedule f s]? =
      match lastListed frames f s with
      | some (frame, entry) => (parseSlot (frameDefaults event frame) entry).toOption
      | none => slots[cell schedule f s]?) ?_ ?_ frames slots' h
  · exact fun f s _ => by simp [lastListed]
  · intro frames frame x y ih hframe f s hs
    rw [(parseFrame_ok hframe).2.2 f s hs, lastListed_concat, ih f s hs]
    by_cases hf : f = frame.index
    · rw [if_pos hf, if_pos hf.symm, frameSlot]
      cases lastEntry frame.slots s with
      | some entry => rfl
      | none => simp
    · rw [if_neg hf, if_neg (Ne.symm hf)]

theorem parseSchedule_ok {event : ScheduleEvent} {current : Option Schedule} {schedule : Schedule}
    {full : Bool} (h : parseSchedule event current = .ok (schedule, full)) :
    full = event.structure?.isSome ∧ ∃ base, baseSchedule event current = .ok base ∧
      event.frames.foldlM (parseFrame event full base) base.slots = .ok schedule.slots ∧
      schedule = { base with slots := schedule.slots } := by
  obtain ⟨base, hbase, h⟩ := exists_of_bind_eq_ok h
  obtain ⟨slots, hslots, h⟩ := exists_of_bind_eq_ok h
  cases h
  exact ⟨rfl, base, hbase, hslots, rfl⟩

/-- A full event starts from a well-formed schedule without transmit or receive slots. -/
theorem baseSchedule_full {event : ScheduleEvent} {current : Option Schedule}
    {given : ScheduleStructure} {base : Schedule} (hgiven : event.structure? = some given)
    (h : baseSchedule event current = .ok base) :
    base = given.schedule (List.replicate (given.slotsPerFrame * given.framesPerMultiframe) .idle) ∧
      base.WellFormed := by
  unfold baseSchedule at h
  rw [hgiven] at h
  dsimp only at h
  split at h
  · cases h
  next hvalid =>
  split at h
  · cases h
    simp only [not_or] at hvalid
    obtain ⟨hslots, hframes, -, hoverhead, -⟩ := hvalid
    refine ⟨rfl, List.length_replicate, Nat.mul_pos (Nat.pos_of_ne_zero hslots)
      (Nat.pos_of_ne_zero hframes), not_le.mp hoverhead, fun slot hslot => ?_⟩
    rw [List.eq_of_mem_replicate hslot]
    trivial
  · cases h

theorem baseSchedule_update {event : ScheduleEvent} {current : Option Schedule} {base : Schedule}
    (hnone : event.structure? = none) (h : baseSchedule event current = .ok base) :
    current = some base := by
  unfold baseSchedule at h
  rw [hnone] at h
  dsimp only at h
  split at h
  · cases h
    rfl
  · cases h

/-- **Which entry of an accepted event decides a slot.** In a full event it is the last entry for the
frame: the last entry for the slot in it, or the frequency of the frame if the slot is not listed;
slots of frames without an entry are idle. In an update it is the last entry for the slot; the slots
that are not listed, and the structure, stay as they were. -/
theorem parseSchedule_slots {event : ScheduleEvent} {current : Option Schedule} {schedule : Schedule}
    {full : Bool} (h : parseSchedule event current = .ok (schedule, full)) :
    full = event.structure?.isSome ∧
    (∀ given, event.structure? = some given →
      schedule = given.schedule schedule.slots ∧
      ∀ f < schedule.framesPerMultiframe, ∀ s < schedule.slotsPerFrame,
        schedule.slotAt f s =
          match lastFrame event.frames f with
          | some frame =>
              match lastEntry frame.slots s with
              | some entry => (parseSlot (frameDefaults event frame) entry).toOption
              | none => (frameDefaults event frame).frequency.map .rx
          | none => some .idle) ∧
    (event.structure? = none → ∃ installed, current = some installed ∧
      schedule = { installed with slots := schedule.slots } ∧
      ∀ f < schedule.framesPerMultiframe, ∀ s < schedule.slotsPerFrame,
        schedule.slotAt f s =
          match lastListed event.frames f s with
          | some (frame, entry) => (parseSlot (frameDefaults event frame) entry).toOption
          | none => installed.slotAt f s) := by
  obtain ⟨rfl, base, hbase, hframes, heq⟩ := parseSchedule_ok h
  have hslots : schedule.slotsPerFrame = base.slotsPerFrame := by rw [heq]
  have hmultiframe : schedule.framesPerMultiframe = base.framesPerMultiframe := by rw [heq]
  have hcell : ∀ f s, schedule.slotAt f s = schedule.slots[cell base f s]? := by
    intro f s
    rw [Schedule.slotAt, cell, cell, hslots]
  refine ⟨rfl, fun given hgiven => ?_, fun hnone => ?_⟩
  · obtain ⟨hidle, hwell⟩ := baseSchedule_full hgiven hbase
    refine ⟨by rw [hidle] at heq; exact heq, fun f hf s hs => ?_⟩
    rw [hslots] at hs
    rw [hmultiframe] at hf
    rw [hgiven, Option.isSome_some] at hframes
    rw [hcell, parseFrames_full event.frames schedule.slots hframes f s hs]
    cases lastFrame event.frames f with
    | some frame => simp only [frameSlot, if_true]
    | none =>
        have hlt := cell_lt hwell hf hs
        have hreplicate : base.slots =
            List.replicate (given.slotsPerFrame * given.framesPerMultiframe) .idle := by rw [hidle]; rfl
        rw [hreplicate, List.length_replicate] at hlt
        simp only [hreplicate, List.getElem?_replicate, if_pos hlt]
  · refine ⟨base, baseSchedule_update hnone hbase, heq, fun f _ s hs => ?_⟩
    rw [hslots] at hs
    rw [hnone, Option.isSome_none] at hframes
    rw [hcell, parseFrames_update event.frames schedule.slots hframes f s hs]
    rfl

/-! ## Repeated frames

A full event is to make each slot what its last explicit entry says. The frame entry that comes last for a
frame first fills the slots that it does not list itself, also those that an earlier entry for the frame
lists; so the entries decide exactly where such a slot is filled with what it was (`Undisturbed`).
-/

/-- What a full event asks for slot `s` of frame `f`: the last explicit entry, or the frequency of the
frame if it has an entry, or nothing. -/
def askedSlot (event : ScheduleEvent) (f s : ℕ) : Option Slot :=
  match lastListed event.frames f s with
  | some (frame, entry) => (parseSlot (frameDefaults event frame) entry).toOption
  | none =>
      match lastFrame event.frames f with
      | some frame => (frameDefaults event frame).frequency.map .rx
      | none => some .idle

/-- The entry of a frame is one that receives, at its own frequency or that of the frame or the event. -/
def ReceivesAt (event : ScheduleEvent) (frame : ScheduleFrame) (entry : ScheduleSlot)
    (frequency : Option ℕ) : Prop :=
  SlotType.tryFrom entry.slotType = some .rx ∧
    (entry.rx.bind ScheduleRx.frequencyHz).or (frameDefaults event frame).frequency = frequency

/-- Where the last entry for a frame does not list a slot that an earlier one lists, the slot was to
receive at the frequency of the last entry anyway. -/
def Undisturbed (event : ScheduleEvent) : Prop :=
  ∀ f s last frame entry, lastFrame event.frames f = some last → lastEntry last.slots s = none →
    lastListed event.frames f s = some (frame, entry) →
    ReceivesAt event frame entry (frameDefaults event last).frequency

theorem lastListed_eq_none {frames : List ScheduleFrame} {f : ℕ} (s : ℕ) (h : lastFrame frames f = none) :
    lastListed frames f s = none := by
  induction frames using List.reverseRecOn with
  | nil => rfl
  | append_singleton frames frame ih =>
      rw [lastFrame_concat] at h
      split at h
      · cases h
      · next hne => rw [lastListed_concat, if_neg hne, ih h]

/-- The last entry for a slot in the last entry for its frame is the last one of all. -/
theorem lastListed_of_lastEntry {frames : List ScheduleFrame} {f s : ℕ} {last : ScheduleFrame}
    {entry : ScheduleSlot} (hlast : lastFrame frames f = some last)
    (hentry : lastEntry last.slots s = some entry) : lastListed frames f s = some (last, entry) := by
  induction frames using List.reverseRecOn with
  | nil => cases hlast
  | append_singleton frames frame ih =>
      rw [lastFrame_concat] at hlast
      rw [lastListed_concat]
      split at hlast
      · next heq =>
          obtain rfl := Option.some.inj hlast
          rw [if_pos heq, hentry]
      · next hne => rw [if_neg hne, ih hlast]

theorem mem_of_lastListed {frames : List ScheduleFrame} {f s : ℕ} {frame : ScheduleFrame}
    {entry : ScheduleSlot} (h : lastListed frames f s = some (frame, entry)) :
    frame ∈ frames ∧ entry ∈ frame.slots ∧ frame.index = f ∧ entry.index = s := by
  obtain ⟨other, hframe, hmem⟩ := List.mem_flatMap.mp (List.mem_reverse.mp (List.mem_of_find?_eq_some h))
  obtain ⟨_, hentry, heq⟩ := List.mem_map.mp hmem
  cases heq
  have hfound := List.find?_some h
  rw [decide_eq_true_eq] at hfound
  exact ⟨hframe, hentry, hfound.1, hfound.2⟩

/-- Every entry of an accepted event is in range and describes a slot. -/
theorem entries_of_parseFrames {event : ScheduleEvent} {full : Bool} {schedule : Schedule}
    {slots slots' : List Slot} (h : event.frames.foldlM (parseFrame event full schedule) slots = .ok slots')
    {frame : ScheduleFrame} (hframe : frame ∈ event.frames) {entry : ScheduleSlot}
    (hentry : entry ∈ frame.slots) :
    frame.index < schedule.framesPerMultiframe ∧ entry.index < schedule.slotsPerFrame ∧
      ∃ slot, parseSlot (frameDefaults event frame) entry = .ok slot := by
  obtain ⟨x, y, hparse⟩ := exists_step_of_foldlM_ok h hframe
  refine ⟨(parseFrame_ok hparse).1, ?_⟩
  unfold parseFrame at hparse
  split at hparse
  · cases hparse
  obtain ⟨filled, -, hentries⟩ := exists_of_bind_eq_ok hparse
  obtain ⟨z, z', hstep⟩ := exists_step_of_foldlM_ok hentries hentry
  obtain ⟨hlt, slot, hslot, -⟩ := parseEntry_ok hstep
  exact ⟨hlt, slot, hslot⟩

/-- When the slot that an entry describes is what a frame is filled with. -/
theorem fill_eq_iff {event : ScheduleEvent} {frame : ScheduleFrame} {entry : ScheduleSlot} {slot : Slot}
    (h : parseSlot (frameDefaults event frame) entry = .ok slot) (frequency : Option ℕ) :
    frequency.map Slot.rx = some slot ↔ ReceivesAt event frame entry frequency := by
  unfold parseSlot at h
  unfold ReceivesAt
  cases htype : SlotType.tryFrom entry.slotType with
  | none =>
      rw [htype] at h
      cases h
  | some kind =>
      rw [htype] at h
      cases kind with
      | tx =>
          dsimp only at h
          split at h
          · cases h
          · cases h
            simp
      | idle =>
          cases h
          simp
      | rx =>
          dsimp only at h
          split at h
          · cases h
          next hfrequency =>
          cases h
          cases heq : (entry.rx.bind ScheduleRx.frequencyHz).or (frameDefaults event frame).frequency with
          | none => exact absurd (by rw [heq]; rfl) hfrequency
          | some own => simp [eq_comm]

/-- The slots of a full event are those that are asked for, where nothing is disturbed. -/
theorem slotAt_eq_askedSlot_iff {event : ScheduleEvent} {current : Option Schedule} {schedule : Schedule}
    {full : Bool} (h : parseSchedule event current = .ok (schedule, full)) (hfull : full = true) :
    (∀ f < schedule.framesPerMultiframe, ∀ s < schedule.slotsPerFrame,
        schedule.slotAt f s = askedSlot event f s) ↔ Undisturbed event := by
  obtain ⟨hstructure, hslots, -⟩ := parseSchedule_slots h
  obtain ⟨given, hgiven⟩ := Option.isSome_iff_exists.mp (hstructure.symm.trans hfull)
  obtain ⟨-, hslots⟩ := hslots given hgiven
  obtain ⟨-, base, -, hframes, heq⟩ := parseSchedule_ok h
  have hslotsPerFrame : schedule.slotsPerFrame = base.slotsPerFrame := by rw [heq]
  have hframesPerMultiframe : schedule.framesPerMultiframe = base.framesPerMultiframe := by rw [heq]
  constructor
  · intro hasked f s last frame entry hlast hunlisted hlisted
    obtain ⟨hmem, hentry, rfl, rfl⟩ := mem_of_lastListed hlisted
    obtain ⟨hf, hs, slot, hslot⟩ := entries_of_parseFrames hframes hmem hentry
    rw [← hframesPerMultiframe] at hf
    rw [← hslotsPerFrame] at hs
    refine (fill_eq_iff hslot _).mp ?_
    calc (frameDefaults event last).frequency.map Slot.rx
        = schedule.slotAt frame.index entry.index := by simp only [hslots _ hf _ hs, hlast, hunlisted]
      _ = askedSlot event frame.index entry.index := hasked _ hf _ hs
      _ = some slot := by simp only [askedSlot, hlisted, hslot, Except.toOption]
  · intro hundisturbed f hf s hs
    rw [hslots f hf s hs, askedSlot]
    cases hlast : lastFrame event.frames f with
    | none => rw [lastListed_eq_none s hlast]
    | some last =>
        dsimp only
        cases hentry : lastEntry last.slots s with
        | some entry => rw [lastListed_of_lastEntry hlast hentry]
        | none =>
            cases hlisted : lastListed event.frames f s with
            | none => rfl
            | some p =>
                obtain ⟨hmem, hentry', -, -⟩ := mem_of_lastListed hlisted
                obtain ⟨-, -, slot, hslot⟩ := entries_of_parseFrames hframes hmem hentry'
                dsimp only
                rw [hslot]
                exact (fill_eq_iff hslot _).mpr (hundisturbed f s last p.1 p.2 hlast hentry hlisted)

/-- **The slots of an accepted event are those that it asks for, exactly when no frame of a full event is
filled over an earlier entry.** Of an update they always are: the listed slots change, each to its last
entry, and the others and the structure stay as they were. -/
theorem parseSchedule_asked_iff {event : ScheduleEvent} {current : Option Schedule} {schedule : Schedule}
    {full : Bool} (h : parseSchedule event current = .ok (schedule, full)) :
    ((∀ given, event.structure? = some given →
        schedule = given.schedule schedule.slots ∧
        ∀ f < schedule.framesPerMultiframe, ∀ s < schedule.slotsPerFrame,
          schedule.slotAt f s = askedSlot event f s) ∧
      (event.structure? = none → ∃ installed, current = some installed ∧
        schedule = { installed with slots := schedule.slots } ∧
        ∀ f < schedule.framesPerMultiframe, ∀ s < schedule.slotsPerFrame,
          schedule.slotAt f s =
            match lastListed event.frames f s with
            | some (frame, entry) => (parseSlot (frameDefaults event frame) entry).toOption
            | none => installed.slotAt f s)) ↔
      (event.structure?.isSome = true → Undisturbed event) := by
  obtain ⟨hfull, hgiven, hupdate⟩ := parseSchedule_slots h
  constructor
  · intro hasked hsome
    obtain ⟨given, hstructure⟩ := Option.isSome_iff_exists.mp hsome
    exact (slotAt_eq_askedSlot_iff h (hfull.trans hsome)).mp (hasked.1 given hstructure).2
  · intro hundisturbed
    refine ⟨fun given hstructure => ⟨(hgiven given hstructure).1, ?_⟩, hupdate⟩
    have hsome : event.structure?.isSome = true := by rw [hstructure]; rfl
    exact (slotAt_eq_askedSlot_iff h (hfull.trans hsome)).mpr (hundisturbed hsome)

/-- A full event with two entries for its only frame: the first lists the first slot with the given type,
the second the second one as idle. -/
def repeatedFrames (slotType : ℤ) : ScheduleEvent where
  frames := [
    { index := 0, frequencyHz := some 5, dataRateBps := none, serviceClass := none, powerDbm := none
      slots := [{ index := 0, slotType, tx := none, rx := none }] },
    { index := 0, frequencyHz := some 5, dataRateBps := none, serviceClass := none, powerDbm := none
      slots := [{ index := 1, slotType := 3, tx := none, rx := none }] }]
  structure? := some {
    slotsPerFrame := 2, framesPerMultiframe := 1, slotDurationMicroseconds := 10
    slotOverheadMicroseconds := 0, bandwidthHz := 1 }
  frequencyHz := none
  dataRateBps := none
  serviceClass := none
  powerDbm := none

/-- If the first slot is to receive, it does. -/
theorem parseSchedule_asked_iff_repeated :
    ∃ schedule, parseSchedule (repeatedFrames 2) none = .ok (schedule, true) ∧
      schedule.slotAt 0 0 = askedSlot (repeatedFrames 2) 0 0 ∧
      askedSlot (repeatedFrames 2) 0 0 = some (.rx 5) := by
  have h : parseSchedule (repeatedFrames 2) none = .ok (⟨2, 1, 10, 0, 1, [.rx 5, .idle]⟩, true) := by decide
  have hundisturbed : Undisturbed (repeatedFrames 2) := by
    intro f s last frame entry hlast hunlisted hlisted
    obtain ⟨hframe, hentry, rfl, rfl⟩ := mem_of_lastListed hlisted
    rcases List.mem_cons.mp hframe with rfl | hframe
    · obtain rfl := Option.some.inj hlast
      obtain rfl := List.mem_singleton.mp hentry
      exact ⟨rfl, rfl⟩
    · -- the second entry for the frame lists its own slot
      obtain rfl := List.mem_singleton.mp hframe
      obtain rfl := Option.some.inj hlast
      obtain rfl := List.mem_singleton.mp hentry
      cases hunlisted
  have hasked := (parseSchedule_asked_iff h).mpr fun _ => hundisturbed
  exact ⟨_, h, (hasked.1 _ rfl).2 0 (by decide) 0 (by decide), by decide⟩

/-- **A later entry for a frame overwrites the slots that only an earlier one lists**: the last entry
for the first slot makes it idle, but in the schedule it receives. -/
theorem repeated_frame_overwrites_slot :
    ∃ schedule, parseSchedule (repeatedFrames 3) none = .ok (schedule, true) ∧
      ((lastListed (repeatedFrames 3).frames 0 0).map fun p =>
        (parseSlot (frameDefaults (repeatedFrames 3) p.1) p.2).toOption) = some (some .idle) ∧
      schedule.slotAt 0 0 ≠ some .idle := by
  refine ⟨⟨2, 1, 10, 0, 1, [.rx 5, .idle]⟩, by decide, by decide, by decide⟩

/-! ## Well-formedness -/

/-- An entry describes a slot as it should be, or is rejected. -/
theorem parseSlot_avoids (defaults : FrameDefaults) (entry : ScheduleSlot) :
    Avoids .panicked Schedule.SlotOk (parseSlot defaults entry) := by
  have hreject : ∀ message, Avoids .panicked Schedule.SlotOk (reject message) :=
    fun message h => by cases h
  unfold parseSlot
  split
  · dsimp only
    split
    · exact hreject _
    · next hvalid =>
        simp only [not_or] at hvalid
        exact ⟨hvalid.1, hvalid.2.1, not_lt.mp hvalid.2.2.1⟩
  · dsimp only
    split
    · exact hreject _
    · trivial
  · trivial
  · exact hreject _

/-- Slots of a schedule with the structure of `schedule`. -/
structure SlotsOk (schedule : Schedule) (slots : List Slot) : Prop where
  length : slots.length = schedule.slotsPerFrame * schedule.framesPerMultiframe
  ok : ∀ slot ∈ slots, Schedule.SlotOk slot

section

variable {schedule : Schedule} {slots : List Slot}

/-- A write to a slot of a frame does not panic and leaves the slots in order. -/
theorem SlotsOk.writeSlot (h : SlotsOk schedule slots) {f s : ℕ} {slot : Slot}
    (hf : f < schedule.framesPerMultiframe) (hs : s < schedule.slotsPerFrame)
    (hslot : Schedule.SlotOk slot) :
    Avoids .panicked (SlotsOk schedule) (writeSlot slots (cell schedule f s) slot) := by
  have hlt : cell schedule f s < slots.length := by
    have hle : (f + 1) * schedule.slotsPerFrame ≤
        schedule.framesPerMultiframe * schedule.slotsPerFrame := Nat.mul_le_mul_right _ hf
    rw [h.length, cell, Nat.mul_comm schedule.slotsPerFrame]
    rw [Nat.succ_mul] at hle
    omega
  rw [Tdma.writeSlot, if_pos hlt]
  refine ⟨by rw [List.length_set, h.length], fun x hx => ?_⟩
  rcases List.mem_or_eq_of_mem_set hx with hx | rfl
  · exact h.ok x hx
  · exact hslot

theorem SlotsOk.parseEntry (h : SlotsOk schedule slots) {f : ℕ}
    (hf : f < schedule.framesPerMultiframe) (defaults : FrameDefaults) (entry : ScheduleSlot) :
    Avoids .panicked (SlotsOk schedule) (parseEntry schedule f defaults slots entry) := by
  unfold Tdma.parseEntry
  split
  · exact fun h => by cases h
  · next hlt =>
      exact (parseSlot_avoids defaults entry).bind fun value hvalue =>
        h.writeSlot hf (not_le.mp hlt) hvalue

theorem SlotsOk.fillFrame (h : SlotsOk schedule slots) {frame : ScheduleFrame}
    (hf : frame.index < schedule.framesPerMultiframe) (full : Bool) (defaults : FrameDefaults) :
    Avoids .panicked (SlotsOk schedule) (fillFrame full schedule frame defaults slots) := by
  unfold Tdma.fillFrame
  dsimp only
  split
  · split
    · exact fun h => by cases h
    · refine Avoids.foldlM (fun x index hindex hx => ?_) h
      split
      · exact hx
      · exact hx.writeSlot hf (List.mem_range.mp hindex) trivial
  · exact h

/-- A frame of an event does not panic and leaves the slots in order. -/
theorem SlotsOk.parseFrame (h : SlotsOk schedule slots) (event : ScheduleEvent) (full : Bool)
    (frame : ScheduleFrame) :
    Avoids .panicked (SlotsOk schedule) (parseFrame event full schedule slots frame) := by
  unfold Tdma.parseFrame
  split
  · exact fun h => by cases h
  · next hf =>
      refine (h.fillFrame (not_le.mp hf) full _).bind fun x hx => ?_
      exact Avoids.foldlM (fun y entry _ hy => hy.parseEntry (not_le.mp hf) _ entry) hx

end

theorem baseSchedule_ne_panicked (event : ScheduleEvent) (current : Option Schedule) :
    baseSchedule event current ≠ .error .panicked := by
  unfold baseSchedule reject
  split
  · dsimp only
    split
    · simp
    · split <;> simp
  · split <;> simp

/-- **An event never makes the code panic, and an accepted one gives a well-formed schedule**, if the
installed one is. -/
theorem parseSchedule_avoids (event : ScheduleEvent) {current : Option Schedule}
    (hcurrent : ∀ schedule, current = some schedule → schedule.WellFormed) :
    Avoids .panicked (fun r => r.1.WellFormed) (parseSchedule event current) := by
  have hbase : Avoids .panicked Schedule.WellFormed (baseSchedule event current) := by
    cases hresult : baseSchedule event current with
    | error e =>
        rintro rfl
        exact baseSchedule_ne_panicked event current hresult
    | ok base =>
        cases hgiven : event.structure? with
        | some given => exact (baseSchedule_full hgiven hresult).2
        | none => exact hcurrent base (baseSchedule_update hgiven hresult)
  refine hbase.bind fun base hwell => ?_
  have hslots : SlotsOk base base.slots := ⟨hwell.length_slots, hwell.slots_ok⟩
  refine (Avoids.foldlM (fun x frame _ hx => hx.parseFrame event _ frame) hslots).bind
    fun slots hok => ?_
  exact ⟨hok.length, hwell.cycle_pos, hwell.overhead_lt, hok.ok⟩

/-! ## Schedule events, one after the other -/

/-- What becomes of a schedule event. -/
inductive EventOutcome
  | accepted (full : Bool)
  | rejected (message : String)
  | panicked

section

variable (decode : Bytes → Except String ScheduleEvent)

/-- `parse_schedule` on the bytes of an event; `decode` is the decoder of the message. -/
def parseBytes (data : Bytes) (current : Option Schedule) :
    Except ScheduleFailure (Schedule × Bool) :=
  match decode data with
  | .error error => reject ("invalid schedule: " ++ error)
  | .ok event => parseSchedule event current

/-- What `process_event` does to the installed schedule. -/
def processEvent (current : Option Schedule) (data : Bytes) : Option Schedule × EventOutcome :=
  match parseBytes decode data current with
  | .ok (schedule, full) => (some schedule, .accepted full)
  | .error (.rejected message) => (current, .rejected message)
  | .error .panicked => (current, .panicked)

/-- The installed schedule after the events `datas`. -/
def installed (datas : List Bytes) : Option Schedule :=
  datas.foldl (fun current data => (processEvent decode current data).1) none

variable {decode}

theorem parseBytes_avoids (data : Bytes) {current : Option Schedule}
    (hcurrent : ∀ schedule, current = some schedule → schedule.WellFormed) :
    Avoids .panicked (fun r => r.1.WellFormed) (parseBytes decode data current) := by
  unfold parseBytes
  split
  · exact fun h => by cases h
  · exact parseSchedule_avoids _ hcurrent

/-- One event keeps the installed schedule well formed and does not panic. -/
theorem processEvent_wellFormed {current : Option Schedule}
    (hcurrent : ∀ schedule, current = some schedule → schedule.WellFormed) (data : Bytes) :
    (processEvent decode current data).2 ≠ .panicked ∧
      ∀ schedule, (processEvent decode current data).1 = some schedule → schedule.WellFormed := by
  have hparse : Avoids _ _ (parseBytes decode data current) := parseBytes_avoids data hcurrent
  unfold processEvent
  split
  · next hok =>
      refine ⟨by simp, fun schedule heq => ?_⟩
      rw [← Option.some.inj heq]
      exact hparse.of_ok hok
  · exact ⟨by simp, hcurrent⟩
  · next hpanic => exact absurd hpanic hparse.ne_error

/-- The installed schedule is well formed after any events. -/
theorem installed_wellFormed (datas : List Bytes) :
    ∀ schedule, installed decode datas = some schedule → schedule.WellFormed := by
  induction datas using List.reverseRecOn with
  | nil => exact fun _ h => by cases h
  | append_singleton datas data ih =>
      rw [installed, List.foldl_append]
      exact (processEvent_wellFormed ih data).2

namespace Schedule

variable {schedule : Schedule}

theorem WellFormed.slot_ne_none (h : schedule.WellFormed) (absolute : ℕ) :
    schedule.slot? absolute ≠ none :=
  Option.ne_none_iff_exists'.mpr ⟨_, ValidSchedule.slot?_eq ⟨schedule, h⟩ absolute⟩

theorem WellFormed.absoluteSlot_ne_none (h : schedule.WellFormed) (timeUs : ℤ) :
    schedule.absoluteSlot? timeUs ≠ none :=
  Option.ne_none_iff_exists'.mpr ⟨_, ValidSchedule.absoluteSlot?_eq ⟨schedule, h⟩ timeUs⟩

end Schedule

/-- **Schedules stay well formed.** After any events, with arbitrary bytes, an installed schedule has
as many slots as its structure says, an overhead below its slot duration and valid transmit slots, so
that no slot lookup and no division fails. The next event does not panic either, and one that is
rejected leaves the schedule as it was. -/
theorem schedule_events_wellFormed (decode : Bytes → Except String ScheduleEvent)
    (datas : List Bytes) :
    (∀ schedule, installed decode datas = some schedule → schedule.WellFormed ∧
      (∀ absolute, schedule.slot? absolute ≠ none) ∧ ∀ timeUs, schedule.absoluteSlot? timeUs ≠ none) ∧
    ∀ data, (processEvent decode (installed decode datas) data).2 ≠ .panicked ∧
      ∀ message, (processEvent decode (installed decode datas) data).2 = .rejected message →
        (processEvent decode (installed decode datas) data).1 = installed decode datas := by
  have hwell : ∀ schedule, installed decode datas = some schedule → schedule.WellFormed :=
    installed_wellFormed datas
  refine ⟨fun schedule h => ?_, fun data => ⟨(processEvent_wellFormed hwell data).1, ?_⟩⟩
  · exact ⟨hwell schedule h, (hwell schedule h).slot_ne_none, (hwell schedule h).absoluteSlot_ne_none⟩
  · intro message hrejected
    unfold processEvent at hrejected ⊢
    split at hrejected
    · cases hrejected
    · rfl
    · cases hrejected

end

end Emane.Tdma
