import Mathlib
import Emane.Ieee80211.Transmit
import Emane.Lib.Recent
import Emane.Lib.Run

set_option autoImplicit false

/-! # The receive side of the IEEE 802.11 layer

A frame waits for the end of its reception (`processUpstream`), and then `completeReceive` decides what
becomes of it. A data frame is first looked up in the history of its source: if it is there it is a
duplicate, and if not it is entered. Only then its tries are simulated, each of which may be lost to a
collision or to noise.

So a frame whose tries are all lost is in the history all the same, and when its sender sends it again
it is dropped as a duplicate. Duplicates are justified by a copy that was received exactly in the runs
in which no data frame arrives while the history holds a copy of it that was lost
(`duplicates_justified_iff`). That a frame is handed up once while it is remembered holds in every run.
-/

namespace Emane.Ieee80211

open Emane.Lib

/-! ## Frames -/

/-- `MSG_TYPE_UNICAST_CTS_CTRL` -/
def msgTypeUnicastCtsCtrl : UInt8 := 8

/-- What `process_upstream` reads from a packet of its own kind: the wire header, the payload behind it
and the times of the reception. -/
structure Frame where
  source : UInt16
  destination : UInt16
  sequence : UInt32
  retries : UInt8
  messageType : UInt8
  payload : Bytes
  startOfReception : ℤ
  rxDurationMicroseconds : ℕ
  durationMicroseconds : ℕ
  deriving DecidableEq

structure PendingRx where
  source : UInt16
  destination : UInt16
  payload : Bytes
  sequence : UInt64
  retries : UInt8
  messageType : UInt8
  durationMicroseconds : ℕ
  deliverable : Bool
  ctsRequired : Bool
  endOfReception : ℤ
  deriving DecidableEq

/-- `PacketDropReason`, the ones of a reception -/
inductive PacketDropReason
  | sinr
  | destination
  | badControl
  | badSpectrumQuery
  | duplicate
  | rxDuringTx
  | hiddenBusy
  deriving DecidableEq

/-- How a try comes out, by the random numbers, the estimates and the noise. -/
inductive Attempt
  | rxDuringTx
  | hiddenBusy
  | sinr
  | received
  deriving DecidableEq

/-- What the end of a reception finds: the clock, the answer to the spectrum query (whether the signal is
in the noise, `none` if there is none), and how the tries come out. -/
structure RxEnv where
  now : ℤ
  spectrum : Option Bool
  attempt : ℕ → Attempt

/-! ## State -/

/-- A data frame that was looked up, and what became of it. The source does not keep this. -/
structure Checked where
  pending : PendingRx
  duplicate : Bool
  receptionOk : Bool
  accepted : Bool
  deriving DecidableEq

/-- The part of the layer's state that the receive side uses. -/
structure Receiver where
  id : UInt16
  promiscuous : Bool
  started : Bool
  sequence : UInt64
  currentEot : ℤ
  pendingRx : UInt64 → Option PendingRx
  nextRxId : UInt64
  duplicateHistory : UInt16 → List (UInt64 × ℤ)
  /-- the frames that were looked up, newest first -/
  checked : List Checked
  /-- the frames that were dropped -/
  dropped : List (PendingRx × PacketDropReason)
  /-- the CTS messages that were sent: destination, sequence and duration of the data -/
  cts : List (UInt16 × UInt64 × ℕ)

/-- `DUPLICATE_HISTORY_SIZE` -/
def duplicateHistorySize : ℕ := 16

/-- `DUPLICATE_VALIDITY_US` -/
def duplicateValidityUs : ℤ := 5000000

/-- An entry of the history is kept. -/
def remembered (received now : ℤ) : Bool := now ≤ I64.saturatingAdd received duplicateValidityUs

/-- `is_duplicate`, on the history of the source -/
def isDuplicate (history : List (UInt64 × ℤ)) (sequence : UInt64) (now : ℤ) :
    Bool × List (UInt64 × ℤ) :=
  Recent.check duplicateHistorySize remembered history sequence now

/-- The loop over the tries from number `attempt` on, of which there are `tries` more: the reason of the
last one that was lost, and whether one was received. -/
def attemptLoop (attempts : ℕ → Attempt) :
    ℕ → ℕ → Option PacketDropReason → Option PacketDropReason × Bool
  | 0, _, reason => (reason, false)
  | tries + 1, attempt, reason =>
      match attempts attempt with
      | .rxDuringTx => attemptLoop attempts tries (attempt + 1) (some .rxDuringTx)
      | .hiddenBusy => attemptLoop attempts tries (attempt + 1) (some .hiddenBusy)
      | .received => (reason, true)
      | .sinr => attemptLoop attempts tries (attempt + 1) (some .sinr)

/-- The tries of a data frame, none for a duplicate. -/
def receptionTries (pending : PendingRx) (duplicate : Bool) (env : RxEnv) :
    Option PacketDropReason × Bool :=
  if duplicate then (some .duplicate, false)
  else attemptLoop env.attempt (pending.retries.toNat + 1) 0 none

namespace Receiver

variable (r : Receiver)

/-- A layer that has received nothing. -/
def fresh (id : UInt16) (promiscuous : Bool) : Receiver where
  id
  promiscuous
  started := false
  sequence := 0
  currentEot := 0
  pendingRx := fun _ => none
  nextRxId := 0
  duplicateHistory := fun _ => []
  checked := []
  dropped := []
  cts := []

def drop (pending : PendingRx) (reason : PacketDropReason) : Receiver :=
  { r with dropped := r.dropped ++ [(pending, reason)] }

/-- The answer to a request to send takes a sequence number. -/
def sendCts (pending : PendingRx) (now : ℤ) : Receiver :=
  { r with
    sequence := r.sequence + 1
    currentEot := max r.currentEot (I64.saturatingAdd now 1)
    cts := r.cts ++ [(pending.source, r.sequence, pending.durationMicroseconds)] }

/-- The end of `complete_receive`: the lookup and the tries of a data frame. -/
def completeData (pending : PendingRx) (env : RxEnv) : Receiver :=
  let (duplicate, history) :=
    isDuplicate (r.duplicateHistory pending.source) pending.sequence pending.endOfReception
  let (reason, receptionOk) := receptionTries pending duplicate env
  let accepted := !duplicate && receptionOk && pending.deliverable
  let r := { r with
    duplicateHistory := Function.update r.duplicateHistory pending.source history
    checked := { pending, duplicate, receptionOk, accepted } :: r.checked }
  if accepted then r
  else r.drop pending (if receptionOk then .destination else reason.getD .sinr)

/-- `complete_receive` -/
def completeReceive (id : UInt64) (env : RxEnv) : Receiver :=
  match r.pendingRx id with
  | none => r
  | some pending =>
      let r := { r with pendingRx := Function.update r.pendingRx id none }
      if ¬ r.started then r
      else
        match env.spectrum with
        | none => r.drop pending .badSpectrumQuery
        | some true => r.drop pending .badControl
        | some false =>
            if pending.messageType = msgTypeUnicastCtsCtrl then r
            else
              let r := if pending.ctsRequired then r.sendCts pending env.now else r
              r.completeData pending env

/-- The entry of a frame. -/
def pendingOf (frame : Frame) : PendingRx where
  source := frame.source
  destination := frame.destination
  payload := frame.payload
  sequence := frame.sequence.toUInt64
  retries := frame.retries
  messageType := frame.messageType
  durationMicroseconds := frame.durationMicroseconds
  deliverable := r.promiscuous || frame.destination = r.id || frame.destination = broadcastNem
  ctsRequired := frame.messageType = msgTypeUnicastRtsCtsData && frame.destination = r.id
  endOfReception := I64.saturatingAdd frame.startOfReception (I64.clamp frame.rxDurationMicroseconds)

/-- The frame waits under a new number. -/
def insert (frame : Frame) : Receiver :=
  let id := max (r.nextRxId + 1) 1
  { r with
    nextRxId := id
    pendingRx := Function.update r.pendingRx id (some (r.pendingOf frame)) }

/-- `process_upstream` for a frame; without a timer the reception is completed at once. -/
def processUpstream (frame : Frame) (timerAccepted : Bool) (env : RxEnv) : Receiver :=
  if ¬ r.started then r
  else
    let r := r.insert frame
    if timerAccepted then r else r.completeReceive r.nextRxId env

end Receiver

/-- What happens at the receive side. -/
inductive RxOp
  | start
  | stop
  | upstream (frame : Frame) (timerAccepted : Bool) (env : RxEnv)
  | timed (id : UInt64) (env : RxEnv)

def Receiver.step (r : Receiver) : RxOp → Receiver
  | .start => { r with started := true }
  | .stop => { r with started := false, pendingRx := fun _ => none }
  | .upstream frame timerAccepted env => r.processUpstream frame timerAccepted env
  | .timed id env => r.completeReceive id env

/-! ## What is claimed of duplicates -/

/-- The copy of a frame that was looked up last and was not itself a duplicate. -/
def lastCopy (checked : List Checked) (pending : PendingRx) : Option Checked :=
  checked.find? fun c => c.pending.source = pending.source ∧
    c.pending.sequence = pending.sequence ∧ c.duplicate = false

/-- A frame was dropped as a duplicate only if the copy that it repeats was received. -/
def Justified : List Checked → Prop
  | [] => True
  | c :: earlier => (c.duplicate = true → ∃ copy ∈ lastCopy earlier c.pending,
      copy.receptionOk = true) ∧ Justified earlier

instance Justified.decidable : (checked : List Checked) → Decidable (Justified checked)
  | [] => isTrue trivial
  | c :: earlier =>
      have := Justified.decidable earlier
      inferInstanceAs (Decidable ((c.duplicate = true → ∃ copy ∈ lastCopy earlier c.pending,
        copy.receptionOk = true) ∧ Justified earlier))

/-- An earlier frame is not remembered any more after the later ones: its validity has passed, or too
many other frames of its source were entered. -/
def Forgotten (later : List Checked) (earlier : Checked) (now : ℤ) : Prop :=
  (∃ c ∈ later, c.pending.source = earlier.pending.source ∧
      remembered earlier.pending.endOfReception c.pending.endOfReception = false) ∨
    remembered earlier.pending.endOfReception now = false ∨
    duplicateHistorySize ≤ later.countP fun c =>
      c.pending.source = earlier.pending.source ∧ c.duplicate = false

/-- A frame is handed up again only if it is not remembered any more. -/
def DeliveredOnce (checked : List Checked) : Prop :=
  ∀ newer c later earlier older, checked = newer ++ c :: later ++ earlier :: older →
    c.accepted = true → earlier.accepted = true → c.pending.source = earlier.pending.source →
    c.pending.sequence = earlier.pending.sequence →
    Forgotten later earlier c.pending.endOfReception

/-- The data frame that a step looks up. -/
def Receiver.arriving (r : Receiver) (id : UInt64) (env : RxEnv) : Option PendingRx :=
  (r.pendingRx id).filter fun pending =>
    r.started && env.spectrum = some false && pending.messageType ≠ msgTypeUnicastCtsCtrl

/-- The data frame that an operation looks up. -/
def RxOp.arriving (r : Receiver) : RxOp → Option PendingRx
  | .upstream frame false env =>
      if r.started then (r.insert frame).arriving (r.insert frame).nextRxId env else none
  | .timed id env => r.arriving id env
  | _ => none

/-- The history holds a copy of the frame that was lost. -/
def Receiver.LostCopyRemembered (r : Receiver) (pending : PendingRx) : Prop :=
  ∃ copy ∈ lastCopy r.checked pending, copy.receptionOk = false ∧
    (pending.sequence, copy.pending.endOfReception) ∈ r.duplicateHistory pending.source ∧
    remembered copy.pending.endOfReception pending.endOfReception = true

/-- No data frame arrives of which the history holds a lost copy. -/
def NoLostCopy (r : Receiver) (op : RxOp) : Prop :=
  ∀ pending ∈ op.arriving r, ¬ r.LostCopyRemembered pending

/-! ## The history and the frames -/

/-- The lookups of the frames of a source. -/
def lookups (checked : List Checked) (source : UInt16) : List (Recent.Check UInt64 ℤ) :=
  (checked.filter fun c => c.pending.source = source).map fun c =>
    { key := c.pending.sequence, time := c.pending.endOfReception, repeated := c.duplicate }

/-- The invariant: the histories are those of the frames that were looked up, and no duplicate is handed
up. -/
structure Receiver.Sound (r : Receiver) : Prop where
  tracks : ∀ source, Recent.Tracks duplicateHistorySize remembered (lookups r.checked source)
    (r.duplicateHistory source)
  accepted : ∀ c ∈ r.checked, c.accepted = true → c.duplicate = false
  once : DeliveredOnce r.checked

section

variable {r r' : Receiver} {pending : PendingRx} {env : RxEnv}

theorem lookups_cons_self (c : Checked) (checked : List Checked) :
    lookups (c :: checked) c.pending.source =
      ⟨c.pending.sequence, c.pending.endOfReception, c.duplicate⟩ ::
        lookups checked c.pending.source := by
  simp [lookups]

theorem lookups_cons_of_ne {c : Checked} {source : UInt16} (h : source ≠ c.pending.source)
    (checked : List Checked) : lookups (c :: checked) source = lookups checked source := by
  simp [lookups, h.symm]

theorem lookups_append (left right : List Checked) (source : UInt16) :
    lookups (left ++ right) source = lookups left source ++ lookups right source := by
  simp [lookups]

/-- The last copy of a frame is its last entry in the history. -/
theorem lastEntered_lookups (checked : List Checked) (pending : PendingRx) :
    Recent.lastEntered (lookups checked pending.source) pending.sequence =
      (lastCopy checked pending).map fun c =>
        ⟨c.pending.sequence, c.pending.endOfReception, c.duplicate⟩ := by
  unfold Recent.lastEntered lookups lastCopy
  rw [List.find?_map, List.find?_filter]
  congr 2
  funext c
  simp

theorem entered_lookups (checked : List Checked) (source : UInt16) :
    Recent.entered (lookups checked source) =
      checked.countP fun c => c.pending.source = source ∧ c.duplicate = false := by
  unfold Recent.entered lookups
  rw [List.countP_map, List.countP_filter]
  congr 1
  funext c
  simp [and_comm]

/-- **A frame is a duplicate** exactly if the history holds its last copy. -/
theorem Receiver.Sound.duplicate_iff (h : r.Sound) :
    (isDuplicate (r.duplicateHistory pending.source) pending.sequence
        pending.endOfReception).1 = true ↔
      ∃ copy ∈ lastCopy r.checked pending,
        (pending.sequence, copy.pending.endOfReception) ∈ r.duplicateHistory pending.source ∧
          remembered copy.pending.endOfReception pending.endOfReception = true := by
  rw [isDuplicate, (h.tracks pending.source).repeated_iff, lastEntered_lookups]
  constructor
  · rintro ⟨c, hc, hmem, hvalid⟩
    obtain ⟨copy, hcopy, rfl⟩ := Option.map_eq_some_iff.mp hc
    exact ⟨copy, hcopy, hmem, hvalid⟩
  · rintro ⟨copy, hcopy, hmem, hvalid⟩
    exact ⟨_, Option.map_eq_some_iff.mpr ⟨copy, hcopy, rfl⟩, hmem, hvalid⟩

/-- The record of a data frame that is looked up. -/
def Receiver.record (r : Receiver) (pending : PendingRx) (env : RxEnv) : Checked :=
  let duplicate := (isDuplicate (r.duplicateHistory pending.source) pending.sequence
    pending.endOfReception).1
  let receptionOk := (receptionTries pending duplicate env).2
  { pending, duplicate, receptionOk, accepted := !duplicate && receptionOk && pending.deliverable }

theorem completeData_checked (r : Receiver) (pending : PendingRx) (env : RxEnv) :
    (r.completeData pending env).checked = r.record pending env :: r.checked := by
  unfold Receiver.completeData
  dsimp only
  split <;> rfl

theorem completeData_history (r : Receiver) (pending : PendingRx) (env : RxEnv) :
    (r.completeData pending env).duplicateHistory = Function.update r.duplicateHistory pending.source
      (isDuplicate (r.duplicateHistory pending.source) pending.sequence
        pending.endOfReception).2 := by
  unfold Receiver.completeData
  dsimp only
  split <;> rfl

/-- **A lookup keeps the invariant.** -/
theorem Receiver.Sound.completeData (h : r.Sound) (pending : PendingRx) (env : RxEnv) :
    (r.completeData pending env).Sound where
  tracks source := by
    rw [completeData_checked, completeData_history]
    by_cases hsource : source = pending.source
    · subst hsource
      rw [Function.update_self]
      have hstep := (h.tracks pending.source).step pending.sequence pending.endOfReception
      exact (lookups_cons_self (r.record pending env) r.checked).symm ▸ hstep
    · rw [Function.update_of_ne hsource, lookups_cons_of_ne hsource]
      exact h.tracks source
  accepted c hc haccepted := by
    rw [completeData_checked] at hc
    rcases List.mem_cons.mp hc with rfl | hold
    · simp only [record, Bool.and_eq_true, Bool.not_eq_true'] at haccepted
      exact haccepted.1.1
    · exact h.accepted c hold haccepted
  once newer c later earlier older hchecked hc hearlier hsource hsequence := by
    rw [completeData_checked] at hchecked
    cases newer with
    | cons first newer =>
        exact h.once newer c later earlier older (List.cons.inj hchecked).2 hc hearlier hsource
          hsequence
    | nil =>
        -- the frame that was just looked up was not found
        obtain rfl := (List.cons.inj hchecked).1
        have hrest : r.checked = later ++ earlier :: older := (List.cons.inj hchecked).2
        have hnew : (isDuplicate (r.duplicateHistory pending.source) pending.sequence
            pending.endOfReception).1 = false := by
          simp only [record, Bool.and_eq_true, Bool.not_eq_true'] at hc
          exact hc.1.1
        have hentered := h.accepted earlier (by rw [hrest]; simp) hearlier
        have hsource' : pending.source = earlier.pending.source := hsource
        have hlog : lookups r.checked pending.source = lookups later pending.source ++
            ⟨earlier.pending.sequence, earlier.pending.endOfReception, earlier.duplicate⟩ ::
              lookups older pending.source := by
          rw [hrest, lookups_append, hsource', lookups_cons_self]
        rcases (h.tracks pending.source).forgotten hnew hlog hsequence.symm hentered with
          ⟨k, hk, hinvalid⟩ | hinvalid | hmany
        · obtain ⟨c, hc, rfl⟩ := List.mem_map.mp hk
          obtain ⟨hmem, hcsource⟩ := List.mem_filter.mp hc
          exact .inl ⟨c, hmem, (of_decide_eq_true hcsource).trans hsource', hinvalid⟩
        · exact .inr (.inl hinvalid)
        · rw [entered_lookups, hsource'] at hmany
          exact .inr (.inr hmany)

/-! ## Steps -/

/-- The frames and the histories are the same. -/
structure Receiver.Same (r r' : Receiver) : Prop where
  checked : r'.checked = r.checked
  history : r'.duplicateHistory = r.duplicateHistory

theorem Receiver.Same.sound (hsame : r.Same r') (h : r.Sound) : r'.Sound := by
  refine ⟨?_, ?_, ?_⟩
  · rw [hsame.checked, hsame.history]
    exact h.tracks
  · rw [hsame.checked]
    exact h.accepted
  · rw [hsame.checked]
    exact h.once

/-- **What the end of a reception does**: nothing to the histories, or the lookup of the data frame that
arrives. -/
theorem completeReceive_cases (r : Receiver) (id : UInt64) (env : RxEnv) :
    (r.arriving id env = none ∧ r.Same (r.completeReceive id env)) ∨
      ∃ pending mid, r.arriving id env = some pending ∧ r.Same mid ∧
        r.completeReceive id env = mid.completeData pending env := by
  unfold Receiver.arriving Receiver.completeReceive
  cases r.pendingRx id with
  | none => exact .inl ⟨rfl, rfl, rfl⟩
  | some pending =>
      dsimp only
      by_cases hstarted : r.started = true
      swap
      · rw [if_pos hstarted]
        exact .inl ⟨by simp [hstarted], rfl, rfl⟩
      rw [if_neg (not_not.mpr hstarted)]
      match env.spectrum with
      | none => exact .inl ⟨by simp, rfl, rfl⟩
      | some true => exact .inl ⟨by simp, rfl, rfl⟩
      | some false =>
          dsimp only
          split
          · next hcts => exact .inl ⟨by simp [hcts], rfl, rfl⟩
          · next hdata =>
              refine .inr ⟨pending, _, by simp [hstarted, hdata], ?_, rfl⟩
              split <;> exact ⟨rfl, rfl⟩

theorem step_cases (r : Receiver) (op : RxOp) :
    (op.arriving r = none ∧ r.Same (r.step op)) ∨
      ∃ pending mid env, op.arriving r = some pending ∧ r.Same mid ∧
        r.step op = mid.completeData pending env := by
  cases op with
  | start => exact .inl ⟨rfl, rfl, rfl⟩
  | stop => exact .inl ⟨rfl, rfl, rfl⟩
  | upstream frame timerAccepted env =>
      rw [Receiver.step, Receiver.processUpstream]
      cases timerAccepted with
      | true =>
          refine .inl ⟨rfl, ?_⟩
          split <;> exact ⟨rfl, rfl⟩
      | false =>
          rw [RxOp.arriving]
          cases hstarted : r.started with
          | false => exact .inl ⟨rfl, rfl, rfl⟩
          | true =>
              rcases completeReceive_cases (r.insert frame) (r.insert frame).nextRxId env with
                ⟨hnone, hsame⟩ | ⟨pending, mid, hsome, hsame, heq⟩
              · exact .inl ⟨hnone, hsame.checked, hsame.history⟩
              · exact .inr ⟨pending, mid, env, hsome, ⟨hsame.checked, hsame.history⟩, heq⟩
  | timed id env =>
      rcases completeReceive_cases r id env with ⟨hnone, hsame⟩ | ⟨pending, mid, hsome, hsame, heq⟩
      · exact .inl ⟨hnone, hsame⟩
      · exact .inr ⟨pending, mid, env, hsome, hsame, heq⟩

theorem step_sound (h : r.Sound) (op : RxOp) : (r.step op).Sound := by
  rcases step_cases r op with ⟨-, hsame⟩ | ⟨pending, mid, env, -, hsame, heq⟩
  · exact hsame.sound h
  · rw [heq]
    exact (hsame.sound h).completeData pending env

/-- With all duplicates justified, a lookup keeps them so exactly if the history holds no lost copy. -/
theorem justified_completeData_iff (h : r.Sound) (hjustified : Justified r.checked)
    (pending : PendingRx) (env : RxEnv) :
    Justified (r.completeData pending env).checked ↔ ¬ r.LostCopyRemembered pending := by
  rw [completeData_checked, Justified, and_iff_left hjustified]
  change ((isDuplicate (r.duplicateHistory pending.source) pending.sequence
    pending.endOfReception).1 = true → ∃ copy ∈ lastCopy r.checked pending, _) ↔ _
  rw [h.duplicate_iff]
  constructor
  · rintro hreceived ⟨copy, hcopy, hlost, hmem, hvalid⟩
    obtain ⟨copy', hcopy', hok⟩ := hreceived ⟨copy, hcopy, hmem, hvalid⟩
    obtain rfl := Option.mem_unique hcopy hcopy'
    exact absurd (hok.symm.trans hlost) (by decide)
  · rintro hnone ⟨copy, hcopy, hmem, hvalid⟩
    refine ⟨copy, hcopy, ?_⟩
    by_contra hlost
    exact hnone ⟨copy, hcopy, Bool.eq_false_iff.mpr hlost, hmem, hvalid⟩

theorem justified_step_iff (h : r.Sound) (hjustified : Justified r.checked) (op : RxOp) :
    Justified (r.step op).checked ↔ NoLostCopy r op := by
  unfold NoLostCopy
  rcases step_cases r op with ⟨hnone, hsame⟩ | ⟨pending, mid, env, hsome, hsame, heq⟩
  · rw [hsame.checked, hnone]
    exact ⟨fun _ => nofun, fun _ => hjustified⟩
  · rw [heq, justified_completeData_iff (hsame.sound h) (hsame.checked.symm ▸ hjustified), hsome]
    unfold Receiver.LostCopyRemembered
    rw [hsame.checked, hsame.history]
    simp

end

/-! ## Runs -/

theorem Receiver.sound_fresh (id : UInt16) (promiscuous : Bool) :
    (Receiver.fresh id promiscuous).Sound where
  tracks _ := Recent.tracks_nil ..
  accepted := nofun
  once newer c later earlier older h := by simp [Receiver.fresh] at h

/-- **Duplicates and lost copies**: throughout a run, every frame that is dropped as a duplicate repeats
one that was received, and none is handed up twice while it is remembered, exactly if no data frame
arrives while the history holds a lost copy of it. -/
theorem duplicates_justified_iff (id : UInt16) (promiscuous : Bool) (ops : List RxOp) :
    Throughout Receiver.step (fun r => Justified r.checked ∧ DeliveredOnce r.checked)
        (Receiver.fresh id promiscuous) ops ↔
      StepsMeet Receiver.step NoLostCopy (Receiver.fresh id promiscuous) ops := by
  refine throughout_iff_stepsMeet (J := Receiver.Sound) (fun _ op h => step_sound h op) ?_
    (Receiver.sound_fresh id promiscuous)
    ⟨trivial, (Receiver.sound_fresh id promiscuous).once⟩ ops
  intro r op h hjustified
  rw [and_iff_left (step_sound h op).once]
  exact justified_step_iff h hjustified.1 op

/-- A unicast frame of 429 microseconds that starts at `start` and may be tried twice. -/
def unicastFrame (start : ℤ) : Frame where
  source := 1
  destination := 2
  sequence := 0
  retries := 1
  messageType := msgTypeUnicastData
  payload := [7]
  startOfReception := start
  rxDurationMicroseconds := 429
  durationMicroseconds := 429

/-- A reception that ends at `now`, all of whose tries come out alike. -/
def receptionEnd (now : ℤ) (attempt : Attempt) : RxEnv where
  now
  spectrum := some false
  attempt := fun _ => attempt

/-- **A retransmission is dropped.** Both tries of the first copy are lost to noise; the second copy would
be received, but it is a duplicate, and nothing is handed up. -/
theorem retransmission_dropped :
    let ops : List RxOp := [.start,
      .upstream (unicastFrame 140) true (receptionEnd 140 .sinr), .timed 1 (receptionEnd 569 .sinr),
      .upstream (unicastFrame 603) true (receptionEnd 603 .received),
      .timed 2 (receptionEnd 1032 .received)]
    ¬ Throughout Receiver.step (fun r => Justified r.checked ∧ DeliveredOnce r.checked)
        (Receiver.fresh 2 false) ops ∧
      (ops.foldl Receiver.step (Receiver.fresh 2 false)).dropped.map Prod.snd =
        [.sinr, .duplicate] ∧
      ∀ c ∈ (ops.foldl Receiver.step (Receiver.fresh 2 false)).checked, c.accepted = false := by
  refine ⟨?_, by decide +kernel, by decide +kernel⟩
  rintro ⟨-, -, -, -, -, hjustified, -⟩
  exact absurd hjustified (by decide +kernel)

end Emane.Ieee80211
