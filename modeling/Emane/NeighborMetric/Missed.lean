import Mathlib

set_option autoImplicit false

/-! # Missed frames

For every neighbour the manager counts the frames that were received and those that were missed, by the
gaps in their sequence numbers. The numbers begin anew when the neighbour is restarted, which is known by
another uuid: then the first number is the one to begin with, and what was missed before stays.

The uuid that `update_neighbor_rx` passes is always zero, and this is the uuid of a new record. So the
numbers before the first one count as missed, and the frames after a restart are taken for late ones
(`missed_frames_iff`).

Sequence numbers and counters are natural numbers. The measurements of the channel and the data rates are
not modelled.
-/

namespace Emane.NeighborMetric

/-! ## Records -/

abbrev Uuid := Vector UInt8 16

structure NeighborData where
  lastRxSeqNum : ℕ
  haveEverHadRxActivity : Bool
  lastRxTime : ℕ
  numRxFrames : ℕ
  numRxMissedFrames : ℕ
  uuid : Uuid

namespace NeighborData

def new : NeighborData where
  lastRxSeqNum := 0
  haveEverHadRxActivity := false
  lastRxTime := 0
  numRxFrames := 0
  numRxMissedFrames := 0
  uuid := .replicate 16 0

/-- `clear_data` -/
def clearData (data : NeighborData) : NeighborData :=
  { data with numRxMissedFrames := 0, numRxFrames := 0 }

/-- `update_rx_activity_data` -/
def updateRx (uuid : Uuid) (data : NeighborData) (seqNum rxTime : ℕ) : NeighborData :=
  let data :=
    if uuid = data.uuid then
      if data.lastRxSeqNum < seqNum then
        { data with
          numRxMissedFrames := data.numRxMissedFrames + (seqNum - data.lastRxSeqNum - 1)
          lastRxSeqNum := seqNum }
      else if 0 < data.numRxMissedFrames then
        { data with numRxMissedFrames := data.numRxMissedFrames - 1 }
      else data
    else { data with uuid := uuid, lastRxSeqNum := seqNum }
  { data with
    numRxFrames := data.numRxFrames + 1
    lastRxTime := rxTime
    haveEverHadRxActivity := true }

/-- The record after frames with these numbers and times. -/
def updateAll (uuid : Uuid) (data : NeighborData) (frames : List (ℕ × ℕ)) : NeighborData :=
  frames.foldl (fun data frame => data.updateRx uuid frame.1 frame.2) data

end NeighborData

/-! ## Gaps -/

section

variable {uuid : Uuid} {data : NeighborData}

theorem NeighborData.updateRx_frames (seqNum rxTime : ℕ) :
    (data.updateRx uuid seqNum rxTime).numRxFrames = data.numRxFrames + 1 := by
  unfold updateRx
  split_ifs <;> rfl

/-- The frames are counted, whatever their numbers are. -/
theorem NeighborData.updateAll_frames (frames : List (ℕ × ℕ)) :
    (data.updateAll uuid frames).numRxFrames = data.numRxFrames + frames.length := by
  induction frames generalizing data with
  | nil => rfl
  | cons frame frames ih =>
      calc (data.updateAll uuid (frame :: frames)).numRxFrames
          = (data.updateRx uuid frame.1 frame.2).numRxFrames + frames.length := ih
        _ = data.numRxFrames + (frames.length + 1) := by rw [updateRx_frames]; omega

/-- What a frame of a known uuid does to the last number and the missed frames. -/
theorem NeighborData.updateRx_known (h : uuid = data.uuid) (seqNum rxTime : ℕ) :
    (data.updateRx uuid seqNum rxTime).uuid = uuid ∧
    (data.updateRx uuid seqNum rxTime).lastRxSeqNum = max data.lastRxSeqNum seqNum ∧
    (data.updateRx uuid seqNum rxTime).numRxMissedFrames =
      if data.lastRxSeqNum < seqNum then
        data.numRxMissedFrames + (seqNum - data.lastRxSeqNum - 1)
      else data.numRxMissedFrames - 1 := by
  unfold updateRx
  rw [if_pos h]
  split_ifs with hlast hmissed
  · exact ⟨h.symm, (max_eq_right hlast.le).symm, rfl⟩
  · exact ⟨h.symm, (max_eq_left (not_lt.mp hlast)).symm, rfl⟩
  · refine ⟨h.symm, (max_eq_left (not_lt.mp hlast)).symm, ?_⟩
    dsimp only
    omega

/-- A record has followed the numbers from `base` on: `seen` are those that were received, and the others
up to the last one are missed, on top of `old` frames that were missed before. -/
structure Tracks (uuid : Uuid) (base old : ℕ) (data : NeighborData) (seen : List ℕ) : Prop where
  uuid_eq : uuid = data.uuid
  nodup : seen.Nodup
  base_le : base ≤ data.lastRxSeqNum
  bounds : ∀ n ∈ seen, base ≤ n ∧ n ≤ data.lastRxSeqNum
  missed : data.numRxMissedFrames + seen.length = old + (data.lastRxSeqNum + 1 - base)

variable {base old : ℕ} {seen : List ℕ}

/-- Different numbers in a range are not more than the range. -/
theorem length_le_of_bounds {low high : ℕ} (hnodup : seen.Nodup)
    (hbounds : ∀ n ∈ seen, low ≤ n ∧ n ≤ high) : seen.length ≤ high + 1 - low := by
  have hsubset : seen.toFinset ⊆ Finset.Icc low high := fun n hn =>
    Finset.mem_Icc.mpr (hbounds n (List.mem_toFinset.mp hn))
  calc seen.length = seen.toFinset.card := (List.toFinset_card_of_nodup hnodup).symm
    _ ≤ (Finset.Icc low high).card := Finset.card_le_card hsubset
    _ = high + 1 - low := Nat.card_Icc ..

/-- **A new number**, ahead or late. A late number is in a gap, so there is a missed frame to take
back. -/
theorem Tracks.updateRx (h : Tracks uuid base old data seen) {seqNum : ℕ} (hnew : seqNum ∉ seen)
    (hbase : base ≤ seqNum) (rxTime : ℕ) :
    Tracks uuid base old (data.updateRx uuid seqNum rxTime) (seqNum :: seen) := by
  obtain ⟨huuid, hlast, hmissed⟩ := NeighborData.updateRx_known h.uuid_eq seqNum rxTime
  have hcount := h.missed
  have hnodup : (seqNum :: seen).Nodup := List.nodup_cons.mpr ⟨hnew, h.nodup⟩
  have hle := h.base_le
  constructor
  · exact huuid.symm
  · exact hnodup
  · rw [hlast]
    exact le_max_of_le_left hle
  · intro n hn
    rw [hlast]
    rcases List.mem_cons.mp hn with rfl | hold
    · exact ⟨hbase, le_max_right ..⟩
    · exact ⟨(h.bounds n hold).1, le_max_of_le_left (h.bounds n hold).2⟩
  · rw [hlast, hmissed, List.length_cons]
    by_cases hahead : data.lastRxSeqNum < seqNum
    · rw [if_pos hahead, max_eq_right hahead.le]
      omega
    -- the numbers that were seen do not fill the range, or the late one would be among them
    · have hlate : seqNum ≤ data.lastRxSeqNum := not_lt.mp hahead
      rw [if_neg hahead, max_eq_left hlate]
      have hgap : (seqNum :: seen).length ≤ data.lastRxSeqNum + 1 - base :=
        length_le_of_bounds hnodup fun n hn => by
          rcases List.mem_cons.mp hn with rfl | hold
          · exact ⟨hbase, hlate⟩
          · exact h.bounds n hold
      rw [List.length_cons] at hgap
      omega

/-- New numbers, in any order. -/
theorem Tracks.updateAll (h : Tracks uuid base old data seen) {frames : List (ℕ × ℕ)}
    (hnodup : (frames.map Prod.fst).Nodup) (hnew : ∀ n ∈ frames.map Prod.fst, n ∉ seen)
    (hbase : ∀ n ∈ frames.map Prod.fst, base ≤ n) :
    Tracks uuid base old (data.updateAll uuid frames) ((frames.map Prod.fst).reverse ++ seen) := by
  induction frames generalizing data seen with
  | nil => exact h
  | cons frame frames ih =>
      rw [List.map_cons, List.nodup_cons] at hnodup
      rw [List.map_cons, List.forall_mem_cons] at hnew hbase
      rw [List.map_cons, List.reverse_cons, List.append_assoc, List.singleton_append]
      refine ih (h.updateRx hnew.1 hbase.1 frame.2) hnodup.2 ?_ hbase.2
      intro n hn
      rw [List.mem_cons, not_or]
      refine ⟨?_, hnew.2 n hn⟩
      rintro rfl
      exact hnodup.1 hn

/-- The last number is the highest one. -/
theorem updateAll_last (h : uuid = data.uuid) (frames : List (ℕ × ℕ)) :
    (data.updateAll uuid frames).lastRxSeqNum =
      (frames.map Prod.fst).foldl max data.lastRxSeqNum := by
  induction frames generalizing data with
  | nil => rfl
  | cons frame frames ih =>
      obtain ⟨huuid, hlast, -⟩ := NeighborData.updateRx_known h frame.1 frame.2
      rw [List.map_cons, List.foldl_cons, ← hlast]
      exact ih huuid.symm

/-! ## The first frame -/

/-- The first frame of a new record with the uuid zero: the record begins at the number one, or at zero
if this is the first number. -/
theorem tracks_first_of_zero (first rxTime : ℕ) :
    Tracks (.replicate 16 0) (min first 1) 0
      (NeighborData.new.updateRx (.replicate 16 0) first rxTime) [first] := by
  obtain ⟨huuid, hlast, hmissed⟩ :=
    NeighborData.updateRx_known (show (.replicate 16 0 : Uuid) = NeighborData.new.uuid from rfl)
      first rxTime
  constructor
  · exact huuid.symm
  · exact List.nodup_singleton _
  · rw [hlast]
    exact le_max_of_le_right (min_le_left ..)
  · intro n hn
    obtain rfl := List.mem_singleton.mp hn
    rw [hlast]
    exact ⟨min_le_left .., le_max_right ..⟩
  · rw [hlast, hmissed]
    rcases Nat.eq_zero_or_pos first with rfl | hpos
    · rfl
    -- a new record has the uuid zero, so the numbers from one on count as missed
    · have hzero : NeighborData.new.lastRxSeqNum = 0 := rfl
      have hnone : NeighborData.new.numRxMissedFrames = 0 := rfl
      rw [hzero, hnone, if_pos hpos, List.length_singleton]
      omega

end

/-! ## The manager -/

/-- The records of a neighbour in `neighborDataTable` are those of the interval and of all times. -/
structure NeighborMetricManager where
  r2riMetricTable : UInt16 → Option NeighborData
  neighborDataTable : UInt16 → Option (NeighborData × NeighborData)
  neighborDeleteAge : ℕ

namespace NeighborMetricManager

variable (m : NeighborMetricManager)

def new (neighborDeleteAge : ℕ) : NeighborMetricManager where
  r2riMetricTable _ := none
  neighborDataTable _ := none
  neighborDeleteAge

/-- `handle_rx_activity` -/
def handleRxActivity (src : UInt16) (seqNum : ℕ) (uuid : Uuid) (rxTime : ℕ) : NeighborMetricManager :=
  let r2ri := (m.r2riMetricTable src).getD .new
  let pair := (m.neighborDataTable src).getD (.new, .new)
  { m with
    r2riMetricTable := Function.update m.r2riMetricTable src (r2ri.updateRx uuid seqNum rxTime)
    neighborDataTable := Function.update m.neighborDataTable src
      (pair.1.updateRx uuid seqNum rxTime, pair.2.updateRx uuid seqNum rxTime) }

/-- `handle_tx_activity`: it makes the records. -/
def handleTxActivity (dst : UInt16) : NeighborMetricManager :=
  { m with
    r2riMetricTable :=
      if dst = 0xFFFF then m.r2riMetricTable
      else Function.update m.r2riMetricTable dst ((m.r2riMetricTable dst).getD .new)
    neighborDataTable :=
      Function.update m.neighborDataTable dst ((m.neighborDataTable dst).getD (.new, .new)) }

/-- `get_neighbor_metrics`: old neighbours are removed, and the records of the others cleared. -/
def getNeighborMetrics (currentTime : ℕ) : NeighborMetricManager :=
  { m with
    r2riMetricTable := fun nem => (m.r2riMetricTable nem).bind fun data =>
      if m.neighborDeleteAge < currentTime - data.lastRxTime then none else some data.clearData }

/-- `get_neighbor_statuses`: the interval begins anew. -/
def getNeighborStatuses : NeighborMetricManager :=
  { m with
    neighborDataTable := fun nem => (m.neighborDataTable nem).map fun pair =>
      (pair.1.clearData, pair.2) }

/-- The record that `get_neighbor_metric_status` reports. -/
def metricStatus (nem : UInt16) : Option NeighborData := (m.neighborDataTable nem).map Prod.snd

/-- `update_neighbor_rx` of the framework. -/
def updateNeighborRx (source : UInt16) (sequence rxTime : ℕ) : NeighborMetricManager :=
  m.handleRxActivity source sequence (.replicate 16 0) rxTime

inductive Op where
  | rx (source : UInt16) (sequence rxTime : ℕ)
  | tx (destination : UInt16)
  | metrics (currentTime : ℕ)
  | statuses

def step : Op → NeighborMetricManager
  | .rx source sequence rxTime => m.updateNeighborRx source sequence rxTime
  | .tx destination => m.handleTxActivity destination
  | .metrics currentTime => m.getNeighborMetrics currentTime
  | .statuses => m.getNeighborStatuses

def run (ops : List Op) : NeighborMetricManager := ops.foldl step m

/-! ## Runs -/

/-- The number and the time of a frame from the source. -/
def Op.frameFrom (source : UInt16) : Op → Option (ℕ × ℕ)
  | .rx src sequence rxTime => if src = source then some (sequence, rxTime) else none
  | _ => none

/-- The frames from a source. -/
def framesFrom (source : UInt16) (ops : List Op) : List (ℕ × ℕ) :=
  ops.filterMap (Op.frameFrom source)

/-- The record of all times of a neighbour, a new one if there is none. -/
def longTerm (nem : UInt16) : NeighborData := (m.metricStatus nem).getD .new

variable {m}

/-- A step changes the record of a neighbour only by a frame from it: what is sent to it, what other
neighbours do and what is reported has no effect. -/
theorem longTerm_step (source : UInt16) (op : Op) :
    (m.step op).longTerm source =
      (m.longTerm source).updateAll (.replicate 16 0) (op.frameFrom source).toList := by
  cases op with
  | rx src sequence rxTime =>
      by_cases hsource : src = source
      · subst hsource
        simp only [Op.frameFrom, if_true, Option.toList_some, NeighborData.updateAll,
          List.foldl_cons, List.foldl_nil, step, updateNeighborRx, handleRxActivity, longTerm,
          metricStatus, Function.update_self, Option.map_some, Option.getD_some]
        cases m.neighborDataTable src <;> rfl
      · simp [Op.frameFrom, hsource, NeighborData.updateAll, step, updateNeighborRx,
          handleRxActivity, longTerm, metricStatus, Function.update_of_ne (Ne.symm hsource)]
  | tx destination =>
      by_cases hsource : source = destination
      · subst hsource
        simp only [Op.frameFrom, Option.toList_none, NeighborData.updateAll, List.foldl_nil, step,
          handleTxActivity, longTerm, metricStatus, Function.update_self, Option.map_some,
          Option.getD_some]
        cases m.neighborDataTable source <;> rfl
      · simp [Op.frameFrom, NeighborData.updateAll, step, handleTxActivity, longTerm, metricStatus,
          Function.update_of_ne hsource]
  | metrics currentTime => rfl
  | statuses =>
      simp only [Op.frameFrom, Option.toList_none, NeighborData.updateAll, List.foldl_nil, step,
        getNeighborStatuses, longTerm, metricStatus]
      cases m.neighborDataTable source <;> rfl

theorem longTerm_run (source : UInt16) (ops : List Op) :
    (m.run ops).longTerm source =
      (m.longTerm source).updateAll (.replicate 16 0) (framesFrom source ops) := by
  induction ops generalizing m with
  | nil => rfl
  | cons op ops ih =>
      have hrun : (m.run (op :: ops)).longTerm source = _ := ih (m := m.step op)
      rw [hrun, longTerm_step, NeighborData.updateAll, NeighborData.updateAll,
        ← List.foldl_append, framesFrom, framesFrom, List.filterMap_cons]
      cases op.frameFrom source <;> rfl

theorem framesFrom_append (source : UInt16) (before after : List Op) :
    framesFrom source (before ++ after) = framesFrom source before ++ framesFrom source after :=
  List.filterMap_append

/-- A run can be cut behind the first frame of a source. -/
theorem exists_prefix_of_framesFrom_eq_cons {source : UInt16} {ops : List Op} {frame : ℕ × ℕ}
    {frames : List (ℕ × ℕ)} (h : framesFrom source ops = frame :: frames) :
    ∃ mid, mid <+: ops ∧ framesFrom source mid = [frame] := by
  obtain ⟨others, op, tail, rfl, hothers, hop, -⟩ := List.filterMap_eq_cons_iff.mp h
  refine ⟨others ++ [op], ⟨tail, by simp⟩, ?_⟩
  rw [framesFrom_append]
  simp [framesFrom, List.filterMap_eq_nil_iff.mpr hothers, hop]

/-! ## The accounting of the framework -/

section

variable (age : ℕ) (source : UInt16)

/-- The record of a source after a run of a new manager. -/
def record (ops : List Op) : NeighborData := ((new age).run ops).longTerm source

theorem record_eq (ops : List Op) :
    record age source ops =
      NeighborData.new.updateAll (.replicate 16 0) (framesFrom source ops) :=
  longTerm_run source ops

theorem record_append (before after : List Op) :
    record age source (before ++ after) =
      (record age source before).updateAll (.replicate 16 0) (framesFrom source after) := by
  rw [record_eq, record_eq, framesFrom_append, NeighborData.updateAll, List.foldl_append]
  rfl

variable {age source} {before : List Op} {first : ℕ} {rest : List ℕ}

/-- The record follows the numbers of a source, from one or zero on. -/
theorem tracks_record (hbefore : (framesFrom source before).map Prod.fst = first :: rest)
    (hnodup : (first :: rest).Nodup) (hfirst : ∀ n ∈ rest, first ≤ n) :
    Tracks (.replicate 16 0) (min first 1) 0 (record age source before) (rest.reverse ++ [first]) ∧
      (record age source before).lastRxSeqNum = rest.foldl max first := by
  obtain ⟨⟨number, rxTime⟩, frames, hframes, rfl, rfl⟩ := List.map_eq_cons_iff.mp hbefore
  have htracks := tracks_first_of_zero number rxTime
  have hlast : (NeighborData.new.updateRx (.replicate 16 0) number rxTime).lastRxSeqNum = number := by
    obtain ⟨-, hlast, -⟩ := NeighborData.updateRx_known
      (show (.replicate 16 0 : Uuid) = NeighborData.new.uuid from rfl) number rxTime
    exact hlast.trans (max_eq_right (Nat.zero_le _))
  rw [List.nodup_cons] at hnodup
  rw [record_eq, hframes]
  constructor
  · exact htracks.updateAll hnodup.2
      (fun n hn hmem => hnodup.1 (List.mem_singleton.mp hmem ▸ hn))
      fun n hn => (min_le_left ..).trans (hfirst n hn)
  · exact (updateAll_last htracks.uuid_eq frames).trans (by rw [hlast])

/-- What was missed, by the count of the record. -/
theorem missed_record (hbefore : (framesFrom source before).map Prod.fst = first :: rest)
    (hnodup : (first :: rest).Nodup) (hfirst : ∀ n ∈ rest, first ≤ n) :
    (record age source before).numRxMissedFrames + (rest.length + 1) =
        rest.foldl max first + 1 - min first 1 ∧
      first + rest.length ≤ rest.foldl max first := by
  obtain ⟨htracks, hlast⟩ := @tracks_record age source _ _ _ hbefore hnodup hfirst
  have hcount := htracks.missed
  have hrange : (rest.reverse ++ [first]).length ≤ rest.foldl max first + 1 - first := by
    refine length_le_of_bounds htracks.nodup fun n hn => ⟨?_, hlast ▸ (htracks.bounds n hn).2⟩
    rcases List.mem_append.mp hn with hmem | hmem
    · exact hfirst n (List.mem_reverse.mp hmem)
    · exact (List.mem_singleton.mp hmem).ge
  rw [hlast] at hcount
  simp only [List.length_append, List.length_reverse, List.length_singleton] at hcount hrange
  omega

/-- The frames of a source are accounted for: in the run `before`, in which it is first heard at `first`
and at `highest` at most, and in a run `after` that follows a restart of the source, in which nothing that
was missed before is taken back. -/
structure Accounted (age : ℕ) (source : UInt16) (before after : List Op) (first highest : ℕ) :
    Prop where
  frames : ∀ mid, mid <+: after → (record age source (before ++ mid)).numRxFrames =
    (framesFrom source before).length + (framesFrom source mid).length
  missed : (record age source before).numRxMissedFrames =
    highest - first + 1 - (framesFrom source before).length
  kept : ∀ mid, mid <+: after → (record age source before).numRxMissedFrames ≤
    (record age source (before ++ mid)).numRxMissedFrames

theorem record_frames (ops : List Op) :
    (record age source ops).numRxFrames = (framesFrom source ops).length := by
  rw [record_eq, NeighborData.updateAll_frames]
  exact Nat.zero_add _

/-- The first frame after a restart is taken for a late one. -/
theorem missed_record_restart {mid : List Op} {frame : ℕ × ℕ}
    (hmid : framesFrom source mid = [frame])
    (huuid : (.replicate 16 0 : Uuid) = (record age source before).uuid)
    (hlate : frame.1 ≤ (record age source before).lastRxSeqNum) :
    (record age source (before ++ mid)).numRxMissedFrames =
      (record age source before).numRxMissedFrames - 1 := by
  obtain ⟨-, -, hmissed⟩ := NeighborData.updateRx_known huuid frame.1 frame.2
  rw [if_neg (not_lt.mpr hlate)] at hmissed
  rw [record_append, hmid]
  exact hmissed

/-- **Missed frames.** `before` has the frames of a source with different numbers from the first one on,
in any order and between those of other sources, and `after` what follows a restart of the source, which
begins with a number that is not ahead. The frames are accounted for exactly if the source is first heard
at the number zero or one and, if it is restarted, no number is missing when this happens. -/
theorem missed_frames_iff (age : ℕ) (source : UInt16) (before after : List Op) (first : ℕ)
    (rest : List ℕ) (hbefore : (framesFrom source before).map Prod.fst = first :: rest)
    (hnodup : (first :: rest).Nodup) (hfirst : ∀ n ∈ rest, first ≤ n)
    (hrestart : ∀ frame ∈ (framesFrom source after).head?, frame.1 ≤ rest.foldl max first) :
    Accounted age source before after first (rest.foldl max first) ↔
      first ≤ 1 ∧
        (framesFrom source after = [] ∨ rest.foldl max first = first + rest.length) := by
  obtain ⟨htracks, hlast⟩ := @tracks_record age source _ _ _ hbefore hnodup hfirst
  obtain ⟨hmissed, hrange⟩ := @missed_record age source _ _ _ hbefore hnodup hfirst
  have hlength : (framesFrom source before).length = rest.length + 1 := by
    rw [← List.length_map Prod.fst, hbefore, List.length_cons]
  constructor
  · intro haccounted
    have hexact := haccounted.missed
    rw [hlength] at hexact
    refine ⟨by omega, ?_⟩
    cases hafter : framesFrom source after with
    | nil => exact .inl rfl
    | cons frame frames =>
        right
        -- the first frame after the restart takes one back if there is one
        obtain ⟨mid, hprefix, hmid⟩ := exists_prefix_of_framesFrom_eq_cons hafter
        have hkept := haccounted.kept mid hprefix
        rw [missed_record_restart hmid htracks.uuid_eq
          (hlast ▸ hrestart frame (by rw [hafter]; rfl))] at hkept
        omega
  · rintro ⟨hone, hcase⟩
    constructor
    · intro mid _
      rw [record_frames, framesFrom_append, List.length_append]
    · rw [hlength]
      omega
    · intro mid hprefix
      rcases hcase with hnone | hcomplete
      · have hmid : framesFrom source mid = [] := by
          obtain ⟨tail, rfl⟩ := hprefix
          rw [framesFrom_append] at hnone
          exact (List.append_eq_nil_iff.mp hnone).1
        rw [record_append, hmid]
        exact le_rfl
      · have hnone : (record age source before).numRxMissedFrames = 0 := by omega
        exact hnone ▸ Nat.zero_le _

end

/-- Three frames from node 2 out of order, one from node 3 in between, and node 2 after a restart. -/
theorem missed_frames_iff_late :
    Accounted 60 2 [.rx 2 1 0, .rx 2 3 1, .rx 3 8 1, .rx 2 2 2] [.rx 2 0 9] 1 3 ↔
      1 ≤ 1 ∧ (framesFrom 2 [.rx 2 0 9] = [] ∨ 3 = 1 + 2) :=
  missed_frames_iff 60 2 [.rx 2 1 0, .rx 2 3 1, .rx 3 8 1, .rx 2 2 2] [.rx 2 0 9] 1 [3, 2] (by decide)
    (by decide) (by decide) (by decide)

/-- A source that is first heard at the number 7 has missed no frame, but six are counted. And a source
that has missed a frame and begins with zero again has missed none. -/
theorem missed_frames_wrong :
    (record 60 21 [.rx 21 7 0]).numRxMissedFrames = 6 ∧
      ¬ Accounted 60 21 [.rx 21 7 0] [] 7 7 ∧
      (record 60 21 [.rx 21 0 0, .rx 21 2 1]).numRxMissedFrames = 1 ∧
      (record 60 21 [.rx 21 0 0, .rx 21 2 1, .rx 21 0 2]).numRxMissedFrames = 0 ∧
      ¬ Accounted 60 21 [.rx 21 0 0, .rx 21 2 1] [.rx 21 0 2] 0 2 := by
  refine ⟨by decide, ?_, by decide, by decide, ?_⟩
  · intro haccounted
    exact absurd haccounted.missed (by decide)
  · intro haccounted
    exact absurd (haccounted.kept [.rx 21 0 2] (List.prefix_refl _)) (by decide)

end NeighborMetricManager

end Emane.NeighborMetric
