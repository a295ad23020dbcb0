import Mathlib
import Emane.Lib.Run
import Emane.Lib.Saturating

set_option autoImplicit false

/-! # The neighbours of an IEEE 802.11 node

The layer knows two kinds of neighbours: the nodes it hears (`channelActivity`, the node itself is one of
them) and those that it hears others clear to send (`twoHopActivity`). It publishes the ids of both in
two tables.

`recordTwoHopActivity` leaves out the nodes that are heard, but a node that is heard for the first time
stays among the others, and `start` forgets the nodes it hears without removing their rows. The maps and
the tables are consistent in the runs in which neither happens (`neighbors_consistent_iff`).

The estimates that the layer computes from the activity are not modelled: no map and no table depends on
them. Neither is the received power, nor are the counters.
-/

namespace Emane.Ieee80211

open Emane.Lib
open Std (ExtTreeMap)

/-! ## Activity -/

structure NeighborActivity where
  lastActivity : ℤ
  utilizationMicroseconds : ℕ
  packets : ℕ
  categoryUtilizationMicroseconds : List ℕ
  previousUtilizationMicroseconds : ℕ
  previousPackets : ℕ
  previousCategoryUtilizationMicroseconds : List ℕ

namespace NeighborActivity

def default : NeighborActivity where
  lastActivity := 0
  utilizationMicroseconds := 0
  packets := 0
  categoryUtilizationMicroseconds := [0, 0, 0, 0]
  previousUtilizationMicroseconds := 0
  previousPackets := 0
  previousCategoryUtilizationMicroseconds := [0, 0, 0, 0]

/-- What `record_channel_activity` and `record_two_hop_activity` add for a frame. -/
def record (activity : NeighborActivity) (now : ℤ) (duration : ℕ) : NeighborActivity :=
  { activity with
    lastActivity := now
    utilizationMicroseconds := U64.saturatingAdd activity.utilizationMicroseconds duration
    packets := U64.saturatingAdd activity.packets 1 }

def recordCategory (activity : NeighborActivity) (duration category : ℕ) : NeighborActivity :=
  { activity with
    categoryUtilizationMicroseconds :=
      activity.categoryUtilizationMicroseconds.modify category (U64.saturatingAdd · duration) }

/-- The end of an interval, for a two-hop neighbour. -/
def roll (activity : NeighborActivity) : NeighborActivity :=
  { activity with
    previousUtilizationMicroseconds := activity.utilizationMicroseconds
    previousPackets := activity.packets
    utilizationMicroseconds := 0
    packets := 0 }

/-- The end of an interval, for a one-hop neighbour. -/
def rollCategories (activity : NeighborActivity) : NeighborActivity :=
  { activity.roll with
    previousCategoryUtilizationMicroseconds := activity.categoryUtilizationMicroseconds
    categoryUtilizationMicroseconds := [0, 0, 0, 0] }

/-- The neighbour was last active longer ago than the timeout. -/
def Expired (activity : NeighborActivity) (now timeout : ℤ) : Prop :=
  timeout < I64.saturatingAdd now (-activity.lastActivity)

instance (activity : NeighborActivity) (now timeout : ℤ) :
    Decidable (activity.Expired now timeout) :=
  inferInstanceAs (Decidable (_ < _))

end NeighborActivity

abbrev Activities := ExtTreeMap UInt16 NeighborActivity

/-- The part of the layer's state that is about neighbours. A row of a table is the id in it. -/
structure Neighborhood where
  localId : UInt16
  started : Bool
  neighborTimeoutMicroseconds : ℕ
  channelActivity : Activities
  twoHopActivity : Activities
  oneHopNeighborTable : Finset UInt16
  twoHopNeighborTable : Finset UInt16

namespace Neighborhood

variable (s : Neighborhood)

/-! ## Records -/

/-- `record_channel_activity`; the second value is whether the node is new. -/
def recordChannelActivity (source : UInt16) (now : ℤ) (duration category : ℕ) :
    Neighborhood × Bool :=
  let activity := ((s.channelActivity[source]?).getD .default).record now duration
  ({ s with
      channelActivity :=
        s.channelActivity.insert source (activity.recordCategory duration category) },
    !s.channelActivity.contains source)

/-- `record_two_hop_activity` -/
def recordTwoHopActivity (source : UInt16) (now : ℤ) (duration : ℕ) : Neighborhood × Bool :=
  if source = s.localId ∨ source ∈ s.channelActivity then (s, false)
  else
    let activity := ((s.twoHopActivity[source]?).getD .default).record now duration
    ({ s with twoHopActivity := s.twoHopActivity.insert source activity },
      !s.twoHopActivity.contains source)

/-- A record of `record_channel_activity`, with the row of a new node. -/
def heard (source : UInt16) (now : ℤ) (duration category : ℕ) : Neighborhood :=
  let (s, inserted) := s.recordChannelActivity source now duration category
  if inserted then { s with oneHopNeighborTable := insert source s.oneHopNeighborTable } else s

/-- A record of `record_two_hop_activity`, with the row of a new node. -/
def cleared (destination : UInt16) (now : ℤ) (duration : ℕ) : Neighborhood :=
  let (s, inserted) := s.recordTwoHopActivity destination now duration
  if inserted then { s with twoHopNeighborTable := insert destination s.twoHopNeighborTable } else s

/-- The nodes of a map that `estimate_channel_activity` removes. -/
def removed (now : ℤ) (activities : Activities) : List UInt16 :=
  if s.neighborTimeoutMicroseconds = 0 then []
  else (activities.filter fun _ activity =>
    activity.Expired now (I64.clamp s.neighborTimeoutMicroseconds)).keys

/-- What it keeps of a map. -/
def retained (now : ℤ) (activities : Activities) : Activities :=
  if s.neighborTimeoutMicroseconds = 0 then activities
  else activities.filter fun _ activity =>
    ¬ activity.Expired now (I64.clamp s.neighborTimeoutMicroseconds)

/-- `estimate_channel_activity`, without the estimates: the nodes that are removed from each map. -/
def estimateChannelActivity (now : ℤ) : Neighborhood × List UInt16 × List UInt16 :=
  ({ s with
      channelActivity :=
        (s.retained now s.channelActivity).map fun _ activity => activity.rollCategories
      twoHopActivity := (s.retained now s.twoHopActivity).map fun _ activity => activity.roll },
    s.removed now s.channelActivity, s.removed now s.twoHopActivity)

end Neighborhood

/-! ## Steps -/

/-- A frame whose reception is over. The answer to the spectrum query is whether the signal is in the
noise, if there is one. -/
structure ReceivedFrame where
  source : UInt16
  destination : UInt16
  isCts : Bool
  durationMicroseconds : ℕ
  category : ℕ
  acquiredAt : ℤ
  spectrum : Option Bool

inductive NeighborOp where
  /-- `ready` is whether the curves can be loaded and contain the rates -/
  | start (ready : Bool)
  | stop
  | completeReceive (frame : ReceivedFrame)
  | transmit (now : ℤ) (durationMicroseconds category : ℕ)
  | channelEstimate (now : ℤ)

namespace Neighborhood

variable (s : Neighborhood)

def start (ready : Bool) : Neighborhood :=
  if ready then { s with channelActivity := ∅, started := true } else s

/-- `complete_receive`, up to the records of activity. -/
def completeReceive (frame : ReceivedFrame) : Neighborhood :=
  if ¬ s.started then s
  else
    match frame.spectrum with
    | none | some true => s
    | some false =>
        if frame.isCts then
          (s.heard frame.source frame.acquiredAt 0 frame.category).cleared frame.destination
            frame.acquiredAt frame.durationMicroseconds
        else s.heard frame.source frame.acquiredAt frame.durationMicroseconds frame.category

/-- The branch of `process_timed_event` for `EVENT_CHANNEL_ESTIMATE`. -/
def channelEstimate (now : ℤ) : Neighborhood :=
  if ¬ s.started then s
  else
    let (s, removedOneHop, removedTwoHop) := s.estimateChannelActivity now
    { s with
      oneHopNeighborTable := s.oneHopNeighborTable \ removedOneHop.toFinset
      twoHopNeighborTable := s.twoHopNeighborTable \ removedTwoHop.toFinset }

def step : NeighborOp → Neighborhood
  | .start ready => s.start ready
  | .stop => { s with started := false }
  | .completeReceive frame => s.completeReceive frame
  | .transmit now duration category =>
      if s.started then s.heard s.localId now duration category else s
  | .channelEstimate now => s.channelEstimate now

/-- A node that has just been made. -/
def fresh (localId : UInt16) (neighborTimeoutMicroseconds : ℕ) : Neighborhood where
  localId
  started := false
  neighborTimeoutMicroseconds
  channelActivity := ∅
  twoHopActivity := ∅
  oneHopNeighborTable := ∅
  twoHopNeighborTable := ∅

/-! ## Consistency -/

/-- The two kinds of neighbours exclude each other, the node is not its own two-hop neighbour, and the
tables show the neighbours of the maps. -/
structure Consistent : Prop where
  disjoint : ∀ n ∈ s.channelActivity, n ∉ s.twoHopActivity
  localId_notMem : s.localId ∉ s.twoHopActivity
  oneHop_rows : ∀ n, n ∈ s.oneHopNeighborTable ↔ n ∈ s.channelActivity
  twoHop_rows : ∀ n, n ∈ s.twoHopNeighborTable ↔ n ∈ s.twoHopActivity

/-- The frame comes to `record_channel_activity`. -/
def Hears (frame : ReceivedFrame) : Prop := s.started ∧ frame.spectrum = some false

/-- A start forgets no neighbour, and no two-hop neighbour is heard. -/
def Orderly : NeighborOp → Prop
  | .start ready => ready → ∀ n, n ∉ s.channelActivity
  | .completeReceive frame => s.Hears frame → frame.source ∉ s.twoHopActivity
  | _ => True

variable {s}

/-! ## A record -/

theorem mem_insert_activity {activities : Activities} {source n : UInt16} {activity : NeighborActivity} :
    n ∈ activities.insert source activity ↔ n = source ∨ n ∈ activities := by
  rw [ExtTreeMap.mem_insert, Std.compare_eq_iff_eq, eq_comm]

/-- The row of a new node is entered, a node that is known has its row already. -/
theorem row_iff {activities : Activities} {table : Finset UInt16} {source n : UInt16}
    (h : n ∈ table ↔ n ∈ activities) :
    n = source ∧ source ∉ activities ∨ n ∈ table ↔ n = source ∨ n ∈ activities := by
  by_cases hn : n = source
  · subst hn
    tauto
  · tauto

section

variable (source : UInt16) (now : ℤ) (duration category : ℕ)

/-- What hearing a node does: the node is among those that are heard, and in the table if it is new. -/
theorem heard_spec :
    (s.heard source now duration category).localId = s.localId ∧
    (∀ n, n ∈ (s.heard source now duration category).channelActivity ↔
      n = source ∨ n ∈ s.channelActivity) ∧
    (s.heard source now duration category).twoHopActivity = s.twoHopActivity ∧
    (∀ n, n ∈ (s.heard source now duration category).oneHopNeighborTable ↔
      n = source ∧ source ∉ s.channelActivity ∨ n ∈ s.oneHopNeighborTable) ∧
    (s.heard source now duration category).twoHopNeighborTable = s.twoHopNeighborTable := by
  unfold heard recordChannelActivity
  by_cases hnew : source ∈ s.channelActivity
  · have hcontains : s.channelActivity.contains source = true := ExtTreeMap.mem_iff_contains.mp hnew
    simp [hcontains, mem_insert_activity, hnew, -ExtTreeMap.mem_insert]
  · have hcontains : s.channelActivity.contains source = false := by
      rwa [ExtTreeMap.mem_iff_contains, Bool.not_eq_true] at hnew
    simp [hcontains, mem_insert_activity, hnew, -ExtTreeMap.mem_insert]

/-- Hearing a node keeps the neighbours consistent exactly if the node is no two-hop neighbour. -/
theorem consistent_heard_iff (h : s.Consistent) :
    (s.heard source now duration category).Consistent ↔ source ∉ s.twoHopActivity := by
  obtain ⟨hlocal, hone, htwo, honeRows, htwoRows⟩ := heard_spec source now duration category (s := s)
  constructor
  · intro hconsistent
    rw [← htwo]
    exact hconsistent.disjoint source ((hone source).mpr (.inl rfl))
  · intro hsource
    constructor
    · intro n hn
      rw [htwo]
      rcases (hone n).mp hn with rfl | hold
      · exact hsource
      · exact h.disjoint n hold
    · rw [hlocal, htwo]
      exact h.localId_notMem
    · intro n
      rw [honeRows, hone]
      exact row_iff (h.oneHop_rows n)
    · intro n
      rw [htwoRows, htwo]
      exact h.twoHop_rows n

/-- A node that is heard or the node itself is no two-hop neighbour: the record is refused. -/
theorem cleared_refused (hrefused : source = s.localId ∨ source ∈ s.channelActivity) :
    s.cleared source now duration = s := by
  simp [cleared, recordTwoHopActivity, hrefused]

theorem cleared_spec (hlocal : source ≠ s.localId) (hone : source ∉ s.channelActivity) :
    (s.cleared source now duration).localId = s.localId ∧
    (s.cleared source now duration).channelActivity = s.channelActivity ∧
    (∀ n, n ∈ (s.cleared source now duration).twoHopActivity ↔
      n = source ∨ n ∈ s.twoHopActivity) ∧
    (s.cleared source now duration).oneHopNeighborTable = s.oneHopNeighborTable ∧
    ∀ n, n ∈ (s.cleared source now duration).twoHopNeighborTable ↔
      n = source ∧ source ∉ s.twoHopActivity ∨ n ∈ s.twoHopNeighborTable := by
  unfold cleared recordTwoHopActivity
  rw [if_neg (by tauto)]
  by_cases hnew : source ∈ s.twoHopActivity
  · have hcontains : s.twoHopActivity.contains source = true := ExtTreeMap.mem_iff_contains.mp hnew
    simp [hcontains, mem_insert_activity, hnew, -ExtTreeMap.mem_insert]
  · have hcontains : s.twoHopActivity.contains source = false := by
      rwa [ExtTreeMap.mem_iff_contains, Bool.not_eq_true] at hnew
    simp [hcontains, mem_insert_activity, hnew, -ExtTreeMap.mem_insert]

/-- What clearing a node does to the others: the heard ones stay, and so do the two-hop neighbours. -/
theorem mem_cleared {n : UInt16} :
    (n ∈ (s.cleared source now duration).channelActivity ↔ n ∈ s.channelActivity) ∧
      (n ∈ s.twoHopActivity → n ∈ (s.cleared source now duration).twoHopActivity) := by
  by_cases hrefused : source = s.localId ∨ source ∈ s.channelActivity
  · rw [cleared_refused source now duration hrefused]
    exact ⟨Iff.rfl, id⟩
  · rw [not_or] at hrefused
    obtain ⟨-, hone, htwo, -⟩ := cleared_spec source now duration hrefused.1 hrefused.2
    rw [hone, htwo]
    exact ⟨Iff.rfl, .inr⟩

theorem consistent_cleared (h : s.Consistent) : (s.cleared source now duration).Consistent := by
  by_cases hrefused : source = s.localId ∨ source ∈ s.channelActivity
  · rwa [cleared_refused source now duration hrefused]
  · rw [not_or] at hrefused
    obtain ⟨hlocal, hone, htwo, honeRows, htwoRows⟩ :=
      cleared_spec source now duration hrefused.1 hrefused.2
    constructor
    · intro n hn
      rw [hone] at hn
      rw [htwo, not_or]
      refine ⟨?_, h.disjoint n hn⟩
      rintro rfl
      exact hrefused.2 hn
    · rw [hlocal, htwo, not_or]
      exact ⟨fun heq => hrefused.1 heq.symm, h.localId_notMem⟩
    · intro n
      rw [honeRows, hone]
      exact h.oneHop_rows n
    · intro n
      rw [htwoRows, htwo]
      exact row_iff (h.twoHop_rows n)

end

/-! ## The end of an interval -/

/-- A node of a map is either kept or removed. -/
theorem mem_retained (now : ℤ) (activities : Activities) (n : UInt16) :
    n ∈ s.retained now activities ↔ n ∈ activities ∧ n ∉ s.removed now activities := by
  unfold retained removed
  by_cases htimeout : s.neighborTimeoutMicroseconds = 0
  · simp [htimeout]
  · rw [if_neg htimeout, if_neg htimeout, ExtTreeMap.mem_keys, ExtTreeMap.mem_filter,
      ExtTreeMap.mem_filter]
    simp only [decide_not, Bool.not_eq_true', decide_eq_false_iff_not, decide_eq_true_eq,
      not_exists]
    exact ⟨fun ⟨hn, hkept⟩ => ⟨hn, fun _ => hkept⟩, fun ⟨hn, hkept⟩ => ⟨hn, hkept hn⟩⟩

theorem consistent_channelEstimate (now : ℤ) (h : s.Consistent) :
    (s.channelEstimate now).Consistent := by
  by_cases hstarted : s.started
  · rw [channelEstimate, if_neg (not_not.mpr hstarted)]
    dsimp only [estimateChannelActivity]
    constructor
    · intro n hone htwo
      dsimp only at hone htwo
      rw [ExtTreeMap.mem_map, mem_retained] at hone htwo
      exact h.disjoint n hone.1 htwo.1
    · intro hmem
      dsimp only at hmem
      rw [ExtTreeMap.mem_map, mem_retained] at hmem
      exact h.localId_notMem hmem.1
    · intro n
      dsimp only
      rw [ExtTreeMap.mem_map, mem_retained, Finset.mem_sdiff, List.mem_toFinset, h.oneHop_rows]
    · intro n
      dsimp only
      rw [ExtTreeMap.mem_map, mem_retained, Finset.mem_sdiff, List.mem_toFinset, h.twoHop_rows]
  · rwa [channelEstimate, if_pos hstarted]

/-! ## A start -/

/-- A start keeps the neighbours consistent exactly if no node has been heard: the rows stay. -/
theorem consistent_start_iff (h : s.Consistent) (ready : Bool) :
    (s.start ready).Consistent ↔ (ready → ∀ n, n ∉ s.channelActivity) := by
  cases ready with
  | false => simpa [start] using h
  | true =>
      have hempty (n : UInt16) : n ∉ (∅ : Activities) := ExtTreeMap.not_mem_empty
      simp only [start, if_true, forall_const]
      constructor
      -- the row of a node that was heard stays, and the node is not in the new map
      · intro hconsistent n hn
        exact hempty n ((hconsistent.oneHop_rows n).mp ((h.oneHop_rows n).mpr hn))
      · intro hnone
        constructor
        · exact fun n hn => absurd hn (hempty n)
        · exact h.localId_notMem
        · intro n
          rw [h.oneHop_rows]
          exact iff_of_false (hnone n) (hempty n)
        · exact h.twoHop_rows

/-! ## Runs -/

theorem consistent_completeReceive_iff (h : s.Consistent) (frame : ReceivedFrame) :
    (s.completeReceive frame).Consistent ↔ (s.Hears frame → frame.source ∉ s.twoHopActivity) := by
  by_cases hhears : s.Hears frame
  · obtain ⟨hstarted, hspectrum⟩ := hhears
    rw [forall_prop_of_true ⟨hstarted, hspectrum⟩, completeReceive, if_neg (not_not.mpr hstarted),
      hspectrum]
    dsimp only
    split
    · -- after the record of the receiver of the CTS, its sender is what it was before
      have hheard := consistent_heard_iff frame.source frame.acquiredAt 0 frame.category h
      refine ⟨?_, fun hsource => consistent_cleared _ _ _ (hheard.mpr hsource)⟩
      intro hconsistent hsource
      have hmem := mem_cleared (s := s.heard frame.source frame.acquiredAt 0 frame.category)
        frame.destination frame.acquiredAt frame.durationMicroseconds (n := frame.source)
      obtain ⟨-, hone, htwo, -⟩ :=
        heard_spec frame.source frame.acquiredAt 0 frame.category (s := s)
      exact hconsistent.disjoint frame.source (hmem.1.mpr ((hone _).mpr (.inl rfl)))
        (hmem.2 (htwo ▸ hsource))
    · exact consistent_heard_iff _ _ _ _ h
  · refine iff_of_true ?_ fun hh => absurd hh hhears
    have hsame : s.completeReceive frame = s := by
      unfold completeReceive
      split
      · rfl
      · case isFalse hstarted =>
          split
          · rfl
          · rfl
          · case h_3 hspectrum => exact absurd ⟨not_not.mp hstarted, hspectrum⟩ hhears
    rwa [hsame]

theorem consistent_step_iff (h : s.Consistent) (op : NeighborOp) :
    (s.step op).Consistent ↔ s.Orderly op := by
  cases op with
  | start ready => exact consistent_start_iff h ready
  | stop => exact iff_of_true ⟨h.disjoint, h.localId_notMem, h.oneHop_rows, h.twoHop_rows⟩ trivial
  | completeReceive frame => exact consistent_completeReceive_iff h frame
  | transmit now duration category =>
      -- the node itself is no two-hop neighbour
      refine iff_of_true ?_ trivial
      rw [step]
      split
      · exact (consistent_heard_iff _ now duration category h).mpr h.localId_notMem
      · exact h
  | channelEstimate now => exact iff_of_true (consistent_channelEstimate now h) trivial

theorem consistent_fresh (localId : UInt16) (neighborTimeoutMicroseconds : ℕ) :
    (fresh localId neighborTimeoutMicroseconds).Consistent where
  disjoint _ hn := absurd hn ExtTreeMap.not_mem_empty
  localId_notMem := ExtTreeMap.not_mem_empty
  oneHop_rows _ := iff_of_false (Finset.notMem_empty _) ExtTreeMap.not_mem_empty
  twoHop_rows _ := iff_of_false (Finset.notMem_empty _) ExtTreeMap.not_mem_empty

/-- **The neighbours over a run**: the maps are disjoint and match the tables throughout a run exactly if
no start forgets a neighbour and no frame comes from a two-hop neighbour. -/
theorem neighbors_consistent_iff (localId : UInt16) (neighborTimeoutMicroseconds : ℕ) (ops : List NeighborOp) :
    Throughout step Consistent (fresh localId neighborTimeoutMicroseconds) ops ↔
      StepsMeet step Orderly (fresh localId neighborTimeoutMicroseconds) ops :=
  throughout_iff_stepsMeet (J := fun _ => True) (P := Consistent) (fun _ _ _ => trivial)
    (fun _ op _ h => consistent_step_iff h op) trivial (consistent_fresh ..) ops

/-- A frame of one millisecond that is heard. -/
def heardFrame (source destination : UInt16) (isCts : Bool) : ReceivedFrame where
  source
  destination
  isCts
  durationMicroseconds := 1000
  category := 0
  acquiredAt := 0
  spectrum := some false

/-- Node 1 hears node 2 clear node 3 to send, and then hears node 3: it is a neighbour of both kinds. And
after node 1 is stopped and started again, its table shows a neighbour that it has forgotten. -/
theorem neighbors_inconsistent :
    ¬ ([.start true, .completeReceive (heardFrame 2 3 true),
        .completeReceive (heardFrame 3 1 false)].foldl step (fresh 1 0)).Consistent ∧
      ¬ ([.start true, .completeReceive (heardFrame 2 1 false), .stop, .start true].foldl step
        (fresh 1 0)).Consistent := by
  constructor
  · intro hconsistent
    exact hconsistent.disjoint 3 (by decide +kernel) (by decide +kernel)
  · intro hconsistent
    exact absurd ((hconsistent.oneHop_rows 2).mp (by decide +kernel)) (by decide +kernel)

end Neighborhood

end Emane.Ieee80211
