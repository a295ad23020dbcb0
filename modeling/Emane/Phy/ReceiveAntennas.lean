import Emane.Lib.SortedUnion
import Emane.Phy.State
import Emane.Spectrum.Independence

set_option autoImplicit false

/-! # The receive antennas of the physical layer

The control part of `builtin_downstream`: a control with frequencies of interest sets them, an
RX_ANTENNA_ADD or RX_ANTENNA_UPDATE enters an antenna with a monitor of its own, recomputes the
frequencies of interest from all antennas and starts the main monitor again with them, and an
RX_ANTENNA_REMOVE takes the antenna out and does nothing else.

What a run of controls amounts to is a list of `Edit`s, and what the antennas are after it is the
abstract `table` of these edits (`Tracks` is the relation between the two). The frequencies of
interest follow the table up to the last antenna entered; `Settled` says when the antennas removed
since make no difference, and that is when the state is `Consistent`.
-/

namespace Emane.Phy

open Std Emane.Lib Emane.PluginApi Emane.Spectrum Emane.Spectrum.SpectrumMonitor

/-! ## Control messages -/

/-- `CONTROL_FREQUENCY_INTEREST` -/
def controlFrequencyInterest : UInt32 := 0x454D0004

/-- `CONTROL_RX_ANTENNA_ADD` -/
def controlRxAntennaAdd : UInt32 := 0x454D0011

/-- `CONTROL_RX_ANTENNA_UPDATE` -/
def controlRxAntennaUpdate : UInt32 := 0x454D0012

/-- `CONTROL_RX_ANTENNA_REMOVE` -/
def controlRxAntennaRemove : UInt32 := 0x454D0013

/-- `FfiControlMessage`; a payload of `none` is a null pointer. -/
structure ControlMessage where
  msgType : UInt32
  payload : Option Bytes

/-- The value of a decoder that may refuse its input. The decoders used here never index outside
their input (`RxAntennaAdd.meets_decode`, `FrequencyOfInterest.meets_decode`). -/
def decoded {α : Type} : Except Fault α → Option α
  | .ok a => some a
  | .error _ => none

/-- `ffi_control_messages`; a batch of `none` is a null pointer with a count. -/
def ffiControlMessages : Option (List ControlMessage) → Option (List ControlMessage)
  | none => none
  | some messages => if messages.length > 4096 then none else some messages

def ControlMessage.frequencyOfInterest (message : ControlMessage) : Option FrequencyOfInterest :=
  if message.msgType ≠ controlFrequencyInterest then none
  else message.payload.bind fun data => decoded (FrequencyOfInterest.decode data)

section

variable (sensitivity : ℕ → F64 → ℚ)

/-- The frequencies of all antennas. The entries of the hash map are taken in the order of their
indices, which `sortDedup` makes irrelevant. -/
def allFrequencies (receiveAntennas : ExtTreeMap UInt16 ReceiveAntennaState) : List ℕ :=
  sortDedup (receiveAntennas.toList.flatMap fun entry => entry.2.frequenciesHz)

/-- The body of the arm for RX_ANTENNA_ADD and RX_ANTENNA_UPDATE. -/
def addAntenna (s : PhyState) (add : RxAntennaAdd) : PhyState :=
  let frequencies := add.frequenciesHz.map UInt64.toNat
  let monitor := s.makeMonitor sensitivity frequencies add.antenna.bandwidthHz.toNat
  let receiveAntennas :=
    s.receiveAntennas.insert add.antenna.antennaIndex ⟨add.antenna, frequencies, monitor⟩
  { s with
    receiveAntennas
    frequenciesOfInterest := allFrequencies receiveAntennas
    bandwidthHz := add.antenna.bandwidthHz.toNat }.initializeMonitor sensitivity

/-- The body of the arm for RX_ANTENNA_REMOVE. -/
def removeAntenna (s : PhyState) (remove : RxAntennaRemove) : PhyState :=
  { s with receiveAntennas := s.receiveAntennas.erase remove.antennaIndex }

/-- One iteration of `for message in incoming`. -/
def handleControl (s : PhyState) (message : ControlMessage) : PhyState :=
  let payload := message.payload.getD []
  if message.msgType = controlRxAntennaAdd ∨ message.msgType = controlRxAntennaUpdate then
    match decoded (RxAntennaAdd.decode payload) with
    | none => s
    | some add => addAntenna sensitivity s add
  else if message.msgType = controlRxAntennaRemove then
    match decoded (RxAntennaRemove.decode payload) with
    | none => s
    | some remove => removeAntenna s remove
  else s

/-- `builtin_downstream` of the physical layer up to the packet. -/
def builtinDownstream (s : PhyState) (messages : Option (List ControlMessage)) : PhyState :=
  match ffiControlMessages messages with
  | none => s
  | some incoming =>
      let s := match incoming.findSome? ControlMessage.frequencyOfInterest with
        | none => s
        | some foi =>
            { s with
              bandwidthHz := foi.bandwidthHz.toNat
              frequenciesOfInterest := foi.frequenciesHz.map UInt64.toNat
              }.initializeMonitor sensitivity
      incoming.foldl (handleControl sensitivity) s

/-- What happens to the layer: a batch of controls, or an update of a monitor by a reception. -/
inductive Event where
  | downstream (messages : Option (List ControlMessage))
  | receive (antenna : Option UInt16) (msg : Message)

def step (masks : Masks) (s : PhyState) : Event → Option PhyState
  | .downstream messages => some (builtinDownstream sensitivity s messages)
  | .receive antenna msg => s.record masks antenna msg

end

/-! ## Edits and their table -/

/-- What an accepted control asks for. -/
inductive Edit where
  | put (add : RxAntennaAdd)
  | remove (index : UInt16)
deriving DecidableEq

namespace Edit

/-- The antenna an edit is about. -/
def index : Edit → UInt16
  | put add => add.antenna.antennaIndex
  | remove index => index

def isRemove : Edit → Bool
  | put _ => false
  | remove _ => true

/-- The frequencies the antenna has after the edit. -/
def entry : Edit → Option (List ℕ)
  | put add => some (add.frequenciesHz.map UInt64.toNat)
  | remove _ => none

end Edit

/-- The edit a control asks for, if it is an antenna control with a well-formed payload. -/
def ControlMessage.edit (message : ControlMessage) : Option Edit :=
  if message.msgType = controlRxAntennaAdd ∨ message.msgType = controlRxAntennaUpdate then
    (decoded (RxAntennaAdd.decode (message.payload.getD []))).map .put
  else if message.msgType = controlRxAntennaRemove then
    (decoded (RxAntennaRemove.decode (message.payload.getD []))).map fun remove =>
      .remove remove.antennaIndex
  else none

/-- The edits of an event; a batch that is too long asks for nothing. -/
def Event.edits : Event → List Edit
  | .downstream messages => ((ffiControlMessages messages).getD []).filterMap ControlMessage.edit
  | .receive .. => []

/-- No control of the event sets the frequencies of interest. -/
def Event.NoInterest : Event → Prop
  | .downstream (some messages) => ∀ message ∈ messages, message.msgType ≠ controlFrequencyInterest
  | _ => True

instance : (event : Event) → Decidable event.NoInterest
  | .downstream (some messages) => inferInstanceAs (Decidable (∀ message ∈ messages, _))
  | .downstream none => isTrue trivial
  | .receive .. => isTrue trivial

/-- The antennas after a list of edits, with their frequencies. -/
def table (edits : List Edit) : UInt16 → Option (List ℕ) :=
  edits.foldl (fun t edit => Function.update t edit.index edit.entry) fun _ => none

/-- The frequencies of the antennas of a table. -/
def heard (t : UInt16 → Option (List ℕ)) : Set ℕ := {f | ∃ i fs, t i = some fs ∧ f ∈ fs}

/-- The edits up to the last antenna entered. -/
def upToLastPut (edits : List Edit) : List Edit := edits.rdropWhile Edit.isRemove

/-- An antenna was entered, and what was heard only by antennas removed since the last time one was
entered is nothing: each of their frequencies is one of an antenna that is still there. -/
def Settled (edits : List Edit) : Prop :=
  upToLastPut edits ≠ [] ∧
    ∀ i fs, table (upToLastPut edits) i = some fs → table edits i = none →
      ∀ f ∈ fs, f ∈ heard (table edits)

theorem table_append_singleton (edits : List Edit) (edit : Edit) :
    table (edits ++ [edit]) = Function.update (table edits) edit.index edit.entry := by
  unfold table
  rw [List.foldl_append]
  rfl

/-- Antennas are only removed after the last one was entered. -/
theorem table_upToLastPut (edits : List Edit) (i : UInt16) :
    table edits i = none ∨ table edits i = table (upToLastPut edits) i := by
  induction edits using List.reverseRecOn with
  | nil => exact .inl rfl
  | append_singleton edits edit ih =>
      cases edit with
      | put add =>
          right
          rw [upToLastPut, List.rdropWhile_concat_neg _ _ _ (by simp [Edit.isRemove])]
      | remove index =>
          rw [upToLastPut, List.rdropWhile_concat_pos _ _ _ rfl, table_append_singleton]
          by_cases hi : i = index
          · left
            rw [hi]
            exact Function.update_self ..
          · rw [Function.update_of_ne (show i ≠ (Edit.remove index).index from hi)]
            exact ih

/-- When an antenna was entered, `Settled` says that everything heard then is heard still. -/
theorem settled_iff (edits : List Edit) :
    Settled edits ↔
      upToLastPut edits ≠ [] ∧ heard (table (upToLastPut edits)) = heard (table edits) := by
  refine and_congr_right fun _ => ?_
  constructor
  · intro h
    ext f
    constructor
    · rintro ⟨i, fs, hi, hf⟩
      rcases table_upToLastPut edits i with hnone | hsame
      · exact h i fs hi hnone f hf
      · exact ⟨i, fs, hsame.trans hi, hf⟩
    · rintro ⟨i, fs, hi, hf⟩
      rcases table_upToLastPut edits i with hnone | hsame
      · rw [hnone] at hi
        cases hi
      · exact ⟨i, fs, hsame.symm.trans hi, hf⟩
  · intro h i fs hi _ f hf
    rw [← h]
    exact ⟨i, fs, hi, hf⟩

/-! ## What the state owes to the edits -/

/-- The monitor was last initialized with these frequencies and has a recorder for each of them and
for no other. -/
def Covers (m : SpectrumMonitor) (frequencies : List ℕ) : Prop :=
  m.config.foi = frequencies ∧ ∀ f, f ∈ m.noiseRecorderMap ↔ f ∈ frequencies

/-- The union of the antennas, the main monitor and the monitors of the antennas agree. -/
structure Consistent (s : PhyState) : Prop where
  sorted : s.frequenciesOfInterest.Pairwise (· < ·)
  union : ∀ f, f ∈ s.frequenciesOfInterest ↔
    ∃ (i : UInt16) (entry : ReceiveAntennaState),
      s.receiveAntennas[i]? = some entry ∧ f ∈ entry.frequenciesHz
  main : Covers s.monitor s.frequenciesOfInterest
  own : ∀ (i : UInt16) (entry : ReceiveAntennaState), s.receiveAntennas[i]? = some entry →
    Covers entry.monitor entry.frequenciesHz

/-- A layer that was configured and has no receive antenna yet. The configuration refuses an empty
list of frequencies of interest. -/
structure Configured (s : PhyState) : Prop where
  noAntennas : s.receiveAntennas = ∅
  interest : s.frequenciesOfInterest ≠ []
  main : Covers s.monitor s.frequenciesOfInterest

/-- The state after some edits, from a layer configured with the frequencies `configured`. -/
structure Tracks (configured : List ℕ) (edits : List Edit) (s : PhyState) : Prop where
  antennas : ∀ i, (s.receiveAntennas[i]?).map (·.frequenciesHz) = table edits i
  main : Covers s.monitor s.frequenciesOfInterest
  own : ∀ (i : UInt16) (entry : ReceiveAntennaState), s.receiveAntennas[i]? = some entry →
    Covers entry.monitor entry.frequenciesHz
  untouched : upToLastPut edits = [] → s.frequenciesOfInterest = configured
  entered : upToLastPut edits ≠ [] → s.frequenciesOfInterest.Pairwise (· < ·) ∧
    ∀ f, f ∈ s.frequenciesOfInterest ↔ f ∈ heard (table (upToLastPut edits))

theorem covers_initializeMonitor (m : SpectrumMonitor) (config : Config) :
    Covers (m.initializeMonitor config) config.foi := by
  refine ⟨rfl, ?_⟩
  intro f
  show f ∈ initialRecorders config ↔ f ∈ config.foi
  rw [ExtTreeMap.mem_iff_isSome_getElem?, getElem?_initialRecorders]
  split
  · next h => simp [h]
  · next h => simp [h]

theorem Covers.update {masks : Masks} {m m' : SpectrumMonitor} {msg : Message} {report : Report}
    {frequencies : List ℕ} (h : Covers m frequencies)
    (hupd : m.update masks msg = some (m', report)) : Covers m' frequencies := by
  obtain ⟨hconfig, hmem⟩ := update_frame hupd
  refine ⟨?_, ?_⟩
  · rw [hconfig]
    exact h.1
  · intro f
    rw [hmem]
    exact h.2 f

/-- What the state's antennas hear is what their table says. -/
theorem mem_heard_iff {s : PhyState} {t : UInt16 → Option (List ℕ)}
    (h : ∀ i, (s.receiveAntennas[i]?).map (·.frequenciesHz) = t i) (f : ℕ) :
    f ∈ heard t ↔ ∃ (i : UInt16) (entry : ReceiveAntennaState),
      s.receiveAntennas[i]? = some entry ∧ f ∈ entry.frequenciesHz := by
  constructor
  · rintro ⟨i, fs, hi, hf⟩
    rw [← h i] at hi
    obtain ⟨entry, hentry, rfl⟩ := Option.map_eq_some_iff.mp hi
    exact ⟨i, entry, hentry, hf⟩
  · rintro ⟨i, entry, hentry, hf⟩
    refine ⟨i, entry.frequenciesHz, ?_, hf⟩
    rw [← h i, hentry]
    rfl

/-! ## One event -/

section

variable {sensitivity : ℕ → F64 → ℚ}

/-- What an edit does to the state. -/
def applyEdit (sensitivity : ℕ → F64 → ℚ) (s : PhyState) : Edit → PhyState
  | .put add => addAntenna sensitivity s add
  | .remove index => removeAntenna s ⟨index⟩

/-- A control applies the edit it asks for. -/
theorem handleControl_eq (s : PhyState) (message : ControlMessage) :
    handleControl sensitivity s message = message.edit.elim s (applyEdit sensitivity s) := by
  unfold handleControl ControlMessage.edit
  simp only
  split
  · cases decoded (RxAntennaAdd.decode (message.payload.getD [])) with
    | none => rfl
    | some add => rfl
  · split
    · cases decoded (RxAntennaRemove.decode (message.payload.getD [])) with
      | none => rfl
      | some remove => rfl
    · rfl

theorem foldl_handleControl (s : PhyState) (messages : List ControlMessage) :
    messages.foldl (handleControl sensitivity) s =
      (messages.filterMap ControlMessage.edit).foldl (applyEdit sensitivity) s := by
  induction messages generalizing s with
  | nil => rfl
  | cons message messages ih =>
      rw [List.foldl_cons, ih, handleControl_eq, List.filterMap_cons]
      cases message.edit with
      | none => rfl
      | some edit => rfl

theorem frequencyOfInterest_eq_none {messages : List ControlMessage}
    (h : ∀ message ∈ messages, message.msgType ≠ controlFrequencyInterest) :
    messages.findSome? ControlMessage.frequencyOfInterest = none := by
  rw [List.findSome?_eq_none_iff]
  intro message hmem
  unfold ControlMessage.frequencyOfInterest
  rw [if_pos (h message hmem)]

/-- A batch without frequencies of interest applies its edits. -/
theorem builtinDownstream_eq (s : PhyState) (messages : Option (List ControlMessage))
    (h : (Event.downstream messages).NoInterest) :
    builtinDownstream sensitivity s messages =
      (Event.downstream messages).edits.foldl (applyEdit sensitivity) s := by
  unfold builtinDownstream Event.edits ffiControlMessages
  cases messages with
  | none => rfl
  | some messages =>
      simp only
      split
      · next hlong => simp [hlong]
      · next incoming hincoming =>
          split at hincoming
          · cases hincoming
          · next hshort =>
              cases hincoming
              rw [frequencyOfInterest_eq_none h, foldl_handleControl]
              simp [hshort]

theorem upToLastPut_put (edits : List Edit) (add : RxAntennaAdd) :
    upToLastPut (edits ++ [.put add]) = edits ++ [.put add] :=
  List.rdropWhile_concat_neg _ _ _ (by simp [Edit.isRemove])

theorem upToLastPut_remove (edits : List Edit) (index : UInt16) :
    upToLastPut (edits ++ [.remove index]) = upToLastPut edits :=
  List.rdropWhile_concat_pos _ _ _ rfl

theorem mem_allFrequencies {antennas : ExtTreeMap UInt16 ReceiveAntennaState} {f : ℕ} :
    f ∈ allFrequencies antennas ↔ ∃ (i : UInt16) (entry : ReceiveAntennaState),
      antennas[i]? = some entry ∧ f ∈ entry.frequenciesHz := by
  unfold allFrequencies
  rw [mem_sortDedup, List.mem_flatMap]
  constructor
  · rintro ⟨⟨i, entry⟩, hmem, hf⟩
    exact ⟨i, entry, ExtTreeMap.mem_toList_iff_getElem?_eq_some.mp hmem, hf⟩
  · rintro ⟨i, entry, hget, hf⟩
    exact ⟨(i, entry), ExtTreeMap.mem_toList_iff_getElem?_eq_some.mpr hget, hf⟩

/-- The entries of the antennas an edit is not about stay as they are. -/
theorem applyEdit_other (s : PhyState) (edit : Edit) {i : UInt16} (hi : edit.index ≠ i) :
    (applyEdit sensitivity s edit).receiveAntennas[i]? = s.receiveAntennas[i]? := by
  cases edit with
  | put add =>
      show (s.receiveAntennas.insert add.antenna.antennaIndex _)[i]? = _
      rw [congrFun (getElem?_insert_eq_update ..) i]
      exact Function.update_of_ne hi.symm _ _
  | remove index =>
      show (s.receiveAntennas.erase index)[i]? = _
      rw [congrFun (getElem?_erase_eq_update ..) i]
      exact Function.update_of_ne hi.symm _ _

/-- The entry of the antenna an edit is about. -/
theorem applyEdit_self (s : PhyState) (edit : Edit) :
    ((applyEdit sensitivity s edit).receiveAntennas[edit.index]?).map (·.frequenciesHz) = edit.entry ∧
      ∀ entry : ReceiveAntennaState,
        (applyEdit sensitivity s edit).receiveAntennas[edit.index]? = some entry →
          Covers entry.monitor entry.frequenciesHz := by
  cases edit with
  | put add =>
      have hget : (applyEdit sensitivity s (.put add)).receiveAntennas[(Edit.put add).index]? =
          some ⟨add.antenna, add.frequenciesHz.map UInt64.toNat,
            s.makeMonitor sensitivity (add.frequenciesHz.map UInt64.toNat)
              add.antenna.bandwidthHz.toNat⟩ := by
        show (s.receiveAntennas.insert add.antenna.antennaIndex _)[add.antenna.antennaIndex]? = _
        rw [ExtTreeMap.getElem?_insert_self]
      rw [hget]
      refine ⟨rfl, ?_⟩
      intro entry hentry
      cases hentry
      exact covers_initializeMonitor _ _
  | remove index =>
      have hget : (applyEdit sensitivity s (.remove index)).receiveAntennas[index]? = none := by
        show (s.receiveAntennas.erase index)[index]? = none
        rw [ExtTreeMap.getElem?_erase_self]
      rw [show (Edit.remove index).index = index from rfl, hget]
      refine ⟨rfl, ?_⟩
      intro entry hentry
      cases hentry

/-- **One edit** keeps the state on its track. -/
theorem Tracks.edit {configured : List ℕ} {edits : List Edit} {s : PhyState}
    (h : Tracks configured edits s) (edit : Edit) :
    Tracks configured (edits ++ [edit]) (applyEdit sensitivity s edit) := by
  obtain ⟨hself, hcovers⟩ := @applyEdit_self sensitivity s edit
  have hantennas : ∀ i, ((applyEdit sensitivity s edit).receiveAntennas[i]?).map (·.frequenciesHz) =
      table (edits ++ [edit]) i := by
    intro i
    rw [table_append_singleton]
    by_cases hi : edit.index = i
    · subst hi
      rw [Function.update_self]
      exact hself
    · rw [applyEdit_other s edit hi, Function.update_of_ne (Ne.symm hi)]
      exact h.antennas i
  have hown : ∀ (i : UInt16) (entry : ReceiveAntennaState),
      (applyEdit sensitivity s edit).receiveAntennas[i]? = some entry →
        Covers entry.monitor entry.frequenciesHz := by
    intro i entry hentry
    by_cases hi : edit.index = i
    · subst hi
      exact hcovers entry hentry
    · rw [applyEdit_other s edit hi] at hentry
      exact h.own i entry hentry
  cases edit with
  | put add =>
      refine ⟨hantennas, covers_initializeMonitor _ _, hown, ?_, ?_⟩
      · intro hnil
        rw [upToLastPut_put] at hnil
        exact absurd hnil (by simp)
      · intro _
        rw [upToLastPut_put]
        refine ⟨pairwise_sortDedup _, ?_⟩
        intro f
        rw [mem_heard_iff hantennas]
        exact mem_allFrequencies
  | remove index =>
      -- neither the frequencies of interest nor the main monitor is touched
      refine ⟨hantennas, h.main, hown, ?_, ?_⟩
      · rw [upToLastPut_remove]
        exact h.untouched
      · rw [upToLastPut_remove]
        exact h.entered

theorem Tracks.foldl {configured : List ℕ} {edits : List Edit} {s : PhyState}
    (h : Tracks configured edits s) (more : List Edit) :
    Tracks configured (edits ++ more) (more.foldl (applyEdit sensitivity) s) := by
  induction more generalizing edits s with
  | nil => simpa using h
  | cons edit more ih => simpa using ih (h.edit edit)

/-- A reception changes no frequencies. -/
theorem Tracks.record {configured : List ℕ} {edits : List Edit} {s s' : PhyState} {masks : Masks}
    {antenna : Option UInt16} {msg : Message} (h : Tracks configured edits s)
    (hrec : s.record masks antenna msg = some s') : Tracks configured edits s' := by
  unfold PhyState.record at hrec
  cases antenna with
  | none =>
      obtain ⟨⟨m, report⟩, hupd, rfl⟩ := Option.map_eq_some_iff.mp hrec
      exact { h with main := h.main.update hupd }
  | some index =>
      simp only at hrec
      split at hrec
      · cases hrec
        exact h
      · next entry hentry =>
          obtain ⟨⟨m, report⟩, hupd, rfl⟩ := Option.map_eq_some_iff.mp hrec
          have hget : ∀ i : UInt16, (s.receiveAntennas.insert index { entry with monitor := m })[i]? =
              Function.update (fun i => s.receiveAntennas[i]?) index
                (some { entry with monitor := m }) i :=
            fun i => congrFun (getElem?_insert_eq_update ..) i
          refine { h with antennas := ?_, own := ?_ }
          · intro i
            rw [hget]
            by_cases hi : i = index
            · subst hi
              rw [Function.update_self, ← h.antennas i, hentry]
              rfl
            · rw [Function.update_of_ne hi]
              exact h.antennas i
          · intro i entry' hentry'
            rw [hget] at hentry'
            by_cases hi : i = index
            · subst hi
              rw [Function.update_self] at hentry'
              cases hentry'
              exact (h.own i entry hentry).update hupd
            · rw [Function.update_of_ne hi] at hentry'
              exact h.own i entry' hentry'

theorem foldl_applyEdit_other {i : UInt16} {edits : List Edit} (h : ∀ edit ∈ edits, edit.index ≠ i)
    (s : PhyState) :
    (edits.foldl (applyEdit sensitivity) s).receiveAntennas[i]? = s.receiveAntennas[i]? := by
  induction edits generalizing s with
  | nil => rfl
  | cons edit edits ih =>
      rw [List.forall_mem_cons] at h
      rw [List.foldl_cons, ih h.2, applyEdit_other s edit h.1]

/-- **One event** keeps the state on the track of its edits. -/
theorem Tracks.event {configured : List ℕ} {edits : List Edit} {s s' : PhyState} {masks : Masks}
    {event : Event} (h : Tracks configured edits s) (hno : event.NoInterest)
    (hstep : step sensitivity masks s event = some s') :
    Tracks configured (edits ++ event.edits) s' := by
  cases event with
  | downstream messages =>
      cases hstep
      rw [builtinDownstream_eq s messages hno]
      exact h.foldl _
  | receive antenna msg =>
      show Tracks configured (edits ++ []) s'
      rw [List.append_nil]
      exact h.record hstep

theorem Tracks.run {configured : List ℕ} {masks : Masks} {events : List Event}
    (hno : ∀ event ∈ events, event.NoInterest) :
    ∀ {edits : List Edit} {s s' : PhyState}, Tracks configured edits s →
      runSteps (step sensitivity masks) s events = some s' →
      Tracks configured (edits ++ events.flatMap Event.edits) s' := by
  induction events with
  | nil =>
      intro edits s s' h hrun
      cases hrun
      simpa using h
  | cons event events ih =>
      intro edits s s' h hrun
      rw [List.forall_mem_cons] at hno
      rw [runSteps_cons] at hrun
      obtain ⟨s₁, hs₁, hrest⟩ := Option.bind_eq_some_iff.mp hrun
      have h₁ := ih hno.2 (h.event hno.1 hs₁) hrest
      rwa [List.append_assoc] at h₁

theorem Configured.tracks {s : PhyState} (h : Configured s) :
    Tracks s.frequenciesOfInterest [] s := by
  refine ⟨?_, h.main, ?_, fun _ => rfl, fun hne => absurd rfl hne⟩
  · intro i
    rw [h.noAntennas, ExtTreeMap.getElem?_empty]
    rfl
  · intro i entry hentry
    rw [h.noAntennas, ExtTreeMap.getElem?_empty] at hentry
    cases hentry

/-- **When the state is consistent.** The monitors always agree with the lists they were made for;
the union is the one of the antennas that were there when the last one was entered. -/
theorem Tracks.consistent_iff {configured : List ℕ} {edits : List Edit} {s : PhyState}
    (h : Tracks configured edits s) (hne : configured ≠ []) : Consistent s ↔ Settled edits := by
  rw [settled_iff]
  constructor
  · intro hs
    have hput : upToLastPut edits ≠ [] := by
      intro hnil
      -- the configured frequencies stand, and there is no antenna to hear them
      obtain ⟨f, hf⟩ := List.exists_mem_of_ne_nil configured hne
      rw [← h.untouched hnil, hs.union, ← mem_heard_iff h.antennas] at hf
      obtain ⟨i, fs, hi, -⟩ := hf
      rcases table_upToLastPut edits i with hnone | hsame
      · rw [hnone] at hi
        cases hi
      · rw [hsame, hnil] at hi
        cases hi
    refine ⟨hput, ?_⟩
    ext f
    rw [mem_heard_iff h.antennas, ← hs.union, (h.entered hput).2]
  · rintro ⟨hput, hheard⟩
    obtain ⟨hsorted, hunion⟩ := h.entered hput
    refine ⟨hsorted, ?_, h.main, h.own⟩
    intro f
    rw [hunion, hheard, mem_heard_iff h.antennas]

end

/-! ## The receive antennas of a running layer -/

/-- **The antenna table.** After any run of antenna controls and receptions of a configured layer, the
frequencies of interest, the main monitor and the antennas agree exactly when the controls are
`Settled`. Each antenna's monitor covers its own frequencies in any case, and a further batch leaves
the monitor of every antenna it is not about as it is. -/
theorem antennas_consistent_iff (sensitivity : ℕ → F64 → ℚ) (masks : Masks) {s₀ s : PhyState}
    (hconfigured : Configured s₀) {events : List Event} (hno : ∀ event ∈ events, event.NoInterest)
    (hrun : runSteps (step sensitivity masks) s₀ events = some s) :
    (Consistent s ↔ Settled (events.flatMap Event.edits)) ∧
      (∀ (i : UInt16) (entry : ReceiveAntennaState), s.receiveAntennas[i]? = some entry →
        Covers entry.monitor entry.frequenciesHz) ∧
      ∀ messages, (Event.downstream messages).NoInterest →
        ∀ i, (∀ edit ∈ (Event.downstream messages).edits, edit.index ≠ i) →
          (builtinDownstream sensitivity s messages).receiveAntennas[i]? = s.receiveAntennas[i]? := by
  have htracks : Tracks s₀.frequenciesOfInterest (events.flatMap Event.edits) s :=
    hconfigured.tracks.run hno hrun
  refine ⟨htracks.consistent_iff hconfigured.interest, htracks.own, ?_⟩
  intro messages hmessages i hother
  rw [builtinDownstream_eq s messages hmessages]
  exact foldl_applyEdit_other hother s

/-! ## Two antennas -/

/-- An antenna with an ideal pattern and a bandwidth of 1 MHz. -/
def idealAntenna (index : UInt16) (frequenciesHz : List UInt64) : RxAntennaAdd :=
  { antenna :=
      { frequencyGroupIndex := 0, antennaIndex := index, bandwidthHz := 1000000
        spectralMaskIndex := 0, pattern := .idealOmni ⟨0⟩ }
    frequenciesHz }

def addMessage (add : RxAntennaAdd) : ControlMessage := ⟨controlRxAntennaAdd, add.encode⟩

def removeMessage (index : UInt16) : ControlMessage :=
  ⟨controlRxAntennaRemove, some (RxAntennaRemove.encode ⟨index⟩)⟩

/-- The layer as it is configured by default, with a fixed sensitivity. -/
def defaultLayer : PhyState := PhyState.new.initializeMonitor fun _ _ => 1 / 1000

theorem configured_defaultLayer : Configured defaultLayer :=
  ⟨rfl, List.cons_ne_nil _ _, covers_initializeMonitor _ _⟩

/-- Two antennas with a frequency in common; the second one is removed again. -/
def sharedFrequency : List Event :=
  [.downstream (some [addMessage (idealAntenna 7 [2400000000, 2410000000]),
      addMessage (idealAntenna 8 [2410000000])]),
    .downstream (some [removeMessage 8])]

theorem edits_sharedFrequency : sharedFrequency.flatMap Event.edits =
    [.put (idealAntenna 7 [2400000000, 2410000000]), .put (idealAntenna 8 [2410000000]),
      .remove 8] := by
  decide +kernel

theorem settled_sharedFrequency : Settled (sharedFrequency.flatMap Event.edits) := by
  rw [edits_sharedFrequency]
  refine ⟨by decide, ?_⟩
  intro i fs hi hgone f hf
  by_cases h8 : i = 8
  · subst h8
    cases hi
    exact ⟨7, [2400000000, 2410000000], rfl, List.mem_cons_of_mem _ hf⟩
  · -- every other antenna is still there
    have hsame : table [.put (idealAntenna 7 [2400000000, 2410000000]),
        .put (idealAntenna 8 [2410000000]), .remove 8] i = some fs :=
      (Function.update_of_ne h8 _ _).trans hi
    rw [hsame] at hgone
    cases hgone

/-- The frequency of the removed antenna is one of the other antenna too. -/
theorem antennas_consistent_sharedFrequency :
    ∃ s, runSteps (step (fun _ _ => 1 / 1000) oneMask) defaultLayer sharedFrequency = some s ∧
      Consistent s := by
  refine ⟨_, rfl, ?_⟩
  exact (antennas_consistent_iff (fun _ _ => 1 / 1000) oneMask configured_defaultLayer
    (by decide) rfl).1.mpr settled_sharedFrequency

/-- An antenna is entered and removed again: the layer has no antenna and still listens to its
frequency. -/
theorem removed_antenna_heard :
    ∃ s, runSteps (step (fun _ _ => 1 / 1000) oneMask) defaultLayer
        [.downstream (some [addMessage (idealAntenna 7 [2400000000])]),
          .downstream (some [removeMessage 7])] = some s ∧
      s.receiveAntennas.isEmpty ∧ s.frequenciesOfInterest = [2400000000] ∧
      s.monitor.config.foi = [2400000000] ∧ ¬ Consistent s := by
  refine ⟨_, rfl, by decide +kernel, by decide +kernel, by decide +kernel, ?_⟩
  intro h
  obtain ⟨i, entry, hentry, -⟩ := (h.union 2400000000).mp (by decide +kernel)
  have hempty : ∀ t : ExtTreeMap UInt16 ReceiveAntennaState, t.isEmpty → t[i]? = none := by
    intro t ht
    rw [ExtTreeMap.isEmpty_iff.mp ht, ExtTreeMap.getElem?_empty]
  rw [hempty _ (by decide +kernel)] at hentry
  cases hentry

end Emane.Phy
