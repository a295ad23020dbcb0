import Mathlib
import Emane.Lib.TreeMap
import Emane.PluginApi.Tables

set_option autoImplicit false

/-! # The metrics of the queues

A layer tells the manager the depth of a queue, its discards and the delay of a packet each time that a packet
leaves. A report to the radio-to-router interface has the largest depth and the largest number of discards for
each queue, and the mean delay, and begins them anew. The size of the queue stays. When the size changes, the
depths that were seen before it are forgotten, but not the discards and the delays.

In every run a report says what was seen since the report before (`mem_getQueueMetrics_iff`), and so do the bytes
that are sent to the interface (`published_since_last`). The numbers wrap around, as they do without overflow
checks, and the order of a report is the one of the ids.
-/

namespace Emane.QueueMetric

open Std Emane.Lib
open Emane.PluginApi (R2riQueueMetric R2riQueueMetrics encodeTable_eq_some)

/-! ## The manager -/

structure R2RIQueueMetric where
  queueId : UInt16
  queueMaxSize : UInt32
  queueCurrentDepthHighWater : UInt32
  numDiscardsHighWater : UInt32
  avgDelayMicroseconds : UInt64
  deriving DecidableEq

structure QueueData where
  maxQueueSize : UInt32
  queueHighWaterMark : UInt32
  numSamples : UInt32
  numDiscardsHighWaterMark : UInt32
  sumDelayMicroseconds : UInt64
  deriving DecidableEq

namespace QueueData

def new (maxSize : UInt32) : QueueData where
  maxQueueSize := maxSize
  queueHighWaterMark := 0
  numSamples := 0
  numDiscardsHighWaterMark := 0
  sumDelayMicroseconds := 0

def reset (data : QueueData) : QueueData :=
  { data with
    numDiscardsHighWaterMark := 0
    sumDelayMicroseconds := 0
    numSamples := 0
    queueHighWaterMark := 0 }

end QueueData

/-- The arguments of `update_queue_metric` besides the id. -/
structure Sample where
  maxQueueSize : UInt32
  currentQueueDepth : UInt32
  numDiscards : UInt32
  delayMicroseconds : UInt64

/-- What `update_queue_metric` does to the data of the queue. -/
def QueueData.update (data : QueueData) (sample : Sample) : QueueData :=
  let data := { data with
    numSamples := data.numSamples + 1
    sumDelayMicroseconds := data.sumDelayMicroseconds + sample.delayMicroseconds }
  let data :=
    if data.maxQueueSize ≠ sample.maxQueueSize then
      { data with maxQueueSize := sample.maxQueueSize, queueHighWaterMark := 0 }
    else data
  let data :=
    if data.queueHighWaterMark < sample.currentQueueDepth then
      { data with queueHighWaterMark := sample.currentQueueDepth }
    else data
  if data.numDiscardsHighWaterMark < sample.numDiscards then
    { data with numDiscardsHighWaterMark := sample.numDiscards }
  else data

/-- What `get_queue_metrics` says about a queue. -/
def QueueData.metric (queueId : UInt16) (data : QueueData) : R2RIQueueMetric where
  queueId := queueId
  queueMaxSize := data.maxQueueSize
  queueCurrentDepthHighWater := data.queueHighWaterMark
  numDiscardsHighWater := data.numDiscardsHighWaterMark
  avgDelayMicroseconds :=
    if 0 < data.numSamples then data.sumDelayMicroseconds / data.numSamples.toUInt64 else 0

/-- An entry of the message to the interface. -/
def R2RIQueueMetric.entry (metric : R2RIQueueMetric) : R2riQueueMetric where
  queueId := metric.queueId
  maxSize := metric.queueMaxSize
  currentDepthHighWater := metric.queueCurrentDepthHighWater
  numDiscardsHighWater := metric.numDiscardsHighWater
  averageDelayMicroseconds := metric.avgDelayMicroseconds

abbrev QueueMetricManager := ExtTreeMap UInt16 QueueData

namespace QueueMetricManager

variable (manager : QueueMetricManager)

def updateQueueMetric (queueId : UInt16) (sample : Sample) : QueueMetricManager :=
  manager.insert queueId ((manager[queueId]?.getD (.new 0)).update sample)

def getQueueMetrics : List R2RIQueueMetric × QueueMetricManager :=
  (manager.toList.map fun entry => entry.2.metric entry.1, manager.map fun _ data => data.reset)

/-- The part of `publish_r2ri` for the queues: the payload of its control. -/
def publishR2ri : Bytes × QueueMetricManager :=
  ((R2riQueueMetrics.mk (manager.getQueueMetrics.1.map R2RIQueueMetric.entry)).encode.getD [],
    manager.getQueueMetrics.2)

def addQueueMetric (queueId : UInt16) (maxQueueSize : UInt32) : QueueMetricManager × Bool :=
  if queueId ∈ manager then (manager, false) else (manager.insert queueId (.new maxQueueSize), true)

def removeQueueMetric (queueId : UInt16) : QueueMetricManager × Bool :=
  (manager.erase queueId, manager.contains queueId)

end QueueMetricManager

/-! ## Runs -/

inductive Op
  | update (queueId : UInt16) (sample : Sample)
  | report
  | add (queueId : UInt16) (maxQueueSize : UInt32)
  | remove (queueId : UInt16)

def QueueMetricManager.apply (manager : QueueMetricManager) : Op → QueueMetricManager
  | .update queueId sample => manager.updateQueueMetric queueId sample
  | .report => manager.publishR2ri.2
  | .add queueId maxQueueSize => (manager.addQueueMetric queueId maxQueueSize).1
  | .remove queueId => (manager.removeQueueMetric queueId).1

/-- The manager after what was done, newest first. -/
def after : List Op → QueueMetricManager
  | [] => ∅
  | op :: past => (after past).apply op

/-! ## What a report says -/

/-- The size of a queue that the manager knows. -/
def maxSizeOf (queueId : UInt16) : List Op → Option UInt32
  | [] => none
  | .update id sample :: past => if id = queueId then some sample.maxQueueSize else maxSizeOf queueId past
  | .report :: past => maxSizeOf queueId past
  | .add id maxQueueSize :: past =>
      if id = queueId then some ((maxSizeOf queueId past).getD maxQueueSize) else maxSizeOf queueId past
  | .remove id :: past => if id = queueId then none else maxSizeOf queueId past

/-- The samples of a queue since the last report, newest first. -/
def samplesOf (queueId : UInt16) : List Op → List Sample
  | [] => []
  | .update id sample :: past => if id = queueId then sample :: samplesOf queueId past else samplesOf queueId past
  | .report :: _ => []
  | .add _ _ :: past => samplesOf queueId past
  | .remove id :: past => if id = queueId then [] else samplesOf queueId past

/-- The largest of some numbers. -/
def largest (value : Sample → UInt32) : List Sample → UInt32
  | [] => 0
  | sample :: samples => max (value sample) (largest value samples)

def totalDelay (samples : List Sample) : ℕ := (samples.map fun sample => sample.delayMicroseconds.toNat).sum

/-- The samples since the size of the queue changed. -/
def sinceResize (size : UInt32) (samples : List Sample) : List Sample :=
  samples.takeWhile fun sample => sample.maxQueueSize = size

/-- What a report says about a queue of this size with these samples. -/
def expected (queueId : UInt16) (size : UInt32) (samples : List Sample) : R2RIQueueMetric where
  queueId := queueId
  queueMaxSize := size
  queueCurrentDepthHighWater := largest Sample.currentQueueDepth (sinceResize size samples)
  numDiscardsHighWater := largest Sample.numDiscards samples
  avgDelayMicroseconds := .ofNat (totalDelay samples % 2 ^ 64 / (samples.length % 2 ^ 32))

/-- The data of a queue of this size with these samples. -/
def dataOf (size : UInt32) (samples : List Sample) : QueueData where
  maxQueueSize := size
  queueHighWaterMark := largest Sample.currentQueueDepth (sinceResize size samples)
  numSamples := .ofNat samples.length
  numDiscardsHighWaterMark := largest Sample.numDiscards samples
  sumDelayMicroseconds := .ofNat (totalDelay samples)

/-! ## One sample more -/

theorem raise_eq_max (mark value : UInt32) : (if mark < value then value else mark) = max value mark := by
  show _ = if value ≤ mark then mark else value
  by_cases h : mark < value
  · rw [if_pos h, if_neg (UInt32.not_le.mpr h)]
  · rw [if_neg h, if_pos (UInt32.not_lt.mp h)]

/-- The size changes: no sample before was seen with the new one. -/
theorem sinceResize_of_ne {old new : UInt32} (hne : old ≠ new) {samples : List Sample}
    (hfirst : ∀ sample ∈ samples.head?, sample.maxQueueSize = old) : sinceResize new samples = [] := by
  cases samples with
  | nil => rfl
  | cons sample samples =>
      have hold : sample.maxQueueSize = old := hfirst sample rfl
      exact List.takeWhile_cons_of_neg (by simpa [hold] using hne)

theorem sinceResize_cons (sample : Sample) (samples : List Sample) :
    sinceResize sample.maxQueueSize (sample :: samples) =
      sample :: sinceResize sample.maxQueueSize samples :=
  List.takeWhile_cons_of_pos (decide_eq_true rfl)

theorem update_dataOf {old : UInt32} {samples : List Sample}
    (hfirst : ∀ sample ∈ samples.head?, sample.maxQueueSize = old) (sample : Sample) :
    (dataOf old samples).update sample = dataOf sample.maxQueueSize (sample :: samples) := by
  have hcount : (UInt32.ofNat samples.length) + 1 = .ofNat (sample :: samples).length := by
    rw [List.length_cons, UInt32.ofNat_add]
    rfl
  have hdelay : (UInt64.ofNat (totalDelay samples)) + sample.delayMicroseconds =
      .ofNat (totalDelay (sample :: samples)) := by
    show _ = UInt64.ofNat (sample.delayMicroseconds.toNat + totalDelay samples)
    rw [UInt64.ofNat_add, UInt64.ofNat_toNat, UInt64.add_comm]
  have hmark : (if old ≠ sample.maxQueueSize then 0
      else largest Sample.currentQueueDepth (sinceResize old samples)) =
      largest Sample.currentQueueDepth (sinceResize sample.maxQueueSize samples) := by
    split
    case isTrue hne => rw [sinceResize_of_ne hne hfirst]; rfl
    case isFalse heq => rw [not_not.mp heq]
  have hdepth : largest Sample.currentQueueDepth (sinceResize sample.maxQueueSize (sample :: samples)) =
      max sample.currentQueueDepth
        (largest Sample.currentQueueDepth (sinceResize sample.maxQueueSize samples)) := by
    rw [sinceResize_cons]
    rfl
  have hdiscards : largest Sample.numDiscards (sample :: samples) =
      max sample.numDiscards (largest Sample.numDiscards samples) := rfl
  unfold QueueData.update dataOf
  rw [← hcount, ← hdelay, hdepth, hdiscards, ← hmark, ← raise_eq_max, ← raise_eq_max]
  by_cases hsize : old = sample.maxQueueSize <;> grind

/-- The mean is zero if there is nothing to divide by. -/
theorem metric_dataOf (queueId : UInt16) (size : UInt32) (samples : List Sample) :
    (dataOf size samples).metric queueId = expected queueId size samples := by
  have hcount : (UInt32.ofNat samples.length).toNat = samples.length % 2 ^ 32 := UInt32.toNat_ofNat'
  have hdelay : (UInt64.ofNat (totalDelay samples)).toNat = totalDelay samples % 2 ^ 64 := UInt64.toNat_ofNat'
  unfold QueueData.metric dataOf expected
  congr 1
  apply UInt64.toNat_inj.mp
  have hlt : totalDelay samples % 2 ^ 64 / (samples.length % 2 ^ 32) < 2 ^ 64 :=
    Nat.lt_of_le_of_lt (Nat.div_le_self _ _) (Nat.mod_lt _ (by positivity))
  rw [UInt64.toNat_ofNat', Nat.mod_eq_of_lt hlt]
  split
  case isTrue => rw [UInt64.toNat_div, UInt32.toNat_toUInt64, hcount, hdelay]
  case isFalse hzero =>
    have hnone : samples.length % 2 ^ 32 = 0 := by
      rw [← hcount]
      exact Nat.eq_zero_of_not_pos fun hpos => hzero (UInt32.lt_iff_toNat_lt.mpr hpos)
    rw [hnone, Nat.div_zero]
    rfl

/-! ## Every run -/

/-- The newest sample has the size of the queue. -/
theorem size_of_first (queueId : UInt16) (past : List Op) :
    ∀ sample ∈ (samplesOf queueId past).head?, maxSizeOf queueId past = some sample.maxQueueSize := by
  induction past with
  | nil => intro sample h; cases h
  | cons op past ih =>
      intro sample h
      cases op with
      | update id sample' =>
          unfold samplesOf at h
          unfold maxSizeOf
          split at h
          case isTrue hid =>
            cases h
            rw [if_pos hid]
          case isFalse hid =>
            rw [if_neg hid]
            exact ih sample h
      | report => cases h
      | add id maxQueueSize =>
          have hsize := ih sample h
          unfold maxSizeOf
          rw [hsize, Option.getD_some, ite_self]
      | remove id =>
          unfold samplesOf at h
          unfold maxSizeOf
          split at h
          case isTrue => cases h
          case isFalse hid =>
            rw [if_neg hid]
            exact ih sample h

/-- A queue that is not known has no samples. -/
theorem samplesOf_of_unknown {queueId : UInt16} {past : List Op} (hsize : maxSizeOf queueId past = none) :
    samplesOf queueId past = [] := by
  cases hsamples : samplesOf queueId past with
  | nil => rfl
  | cons first samples =>
      have hfirst := size_of_first queueId past first (by rw [hsamples]; rfl)
      rw [hsize] at hfirst
      cases hfirst

/-- The data of the queues in every run. -/
theorem getElem?_after (past : List Op) (queueId : UInt16) :
    (after past)[queueId]? = (maxSizeOf queueId past).map fun size => dataOf size (samplesOf queueId past) := by
  induction past generalizing queueId with
  | nil => exact ExtTreeMap.getElem?_empty
  | cons op past ih =>
      cases op with
      | update id sample =>
          show ((after past).insert id (((after past)[id]?.getD (.new 0)).update sample))[queueId]? = _
          rw [ExtTreeMap.getElem?_insert]
          unfold maxSizeOf samplesOf
          by_cases hid : id = queueId
          · subst hid
            have hdata : (after past)[id]?.getD (.new 0) =
                dataOf ((maxSizeOf id past).getD 0) (samplesOf id past) := by
              rw [ih id]
              cases hsize : maxSizeOf id past with
              | some size => rfl
              | none =>
                  rw [samplesOf_of_unknown hsize]
                  rfl
            have hfirst : ∀ sample ∈ (samplesOf id past).head?,
                sample.maxQueueSize = (maxSizeOf id past).getD 0 := by
              intro sample hsample
              rw [size_of_first id past sample hsample]
              rfl
            rw [if_pos compare_self, if_pos rfl, if_pos rfl, hdata, update_dataOf hfirst]
            rfl
          · have hne : compare id queueId ≠ .eq := fun heq => hid (LawfulEqOrd.compare_eq_iff_eq.mp heq)
            rw [if_neg hne, if_neg hid, if_neg hid]
            exact ih queueId
      | report =>
          show ((after past).map fun _ data => data.reset)[queueId]? = _
          -- without samples the data is as after `reset`
          rw [ExtTreeMap.getElem?_map, ih queueId, Option.map_map]
          rfl
      | add id maxQueueSize =>
          show ((after past).addQueueMetric id maxQueueSize).1[queueId]? = _
          have hknown : id ∈ after past ↔ (maxSizeOf id past).isSome := by
            rw [ExtTreeMap.mem_iff_isSome_getElem?, ih id, Option.isSome_map]
          unfold maxSizeOf samplesOf QueueMetricManager.addQueueMetric
          cases hsize : maxSizeOf id past with
          | some size =>
              -- nothing changes
              rw [if_pos (hknown.mpr (by rw [hsize]; rfl)), ih queueId]
              by_cases hid : id = queueId
              · subst hid
                rw [if_pos rfl, hsize]
                rfl
              · rw [if_neg hid]
          | none =>
              have hunknown : ¬ id ∈ after past := by
                rw [hknown, hsize]
                exact Bool.false_ne_true
              rw [if_neg hunknown, ExtTreeMap.getElem?_insert]
              by_cases hid : id = queueId
              · subst hid
                rw [if_pos compare_self, if_pos rfl, hsize, samplesOf_of_unknown hsize]
                rfl
              · have hne : compare id queueId ≠ .eq := fun heq => hid (LawfulEqOrd.compare_eq_iff_eq.mp heq)
                rw [if_neg hne, if_neg hid]
                exact ih queueId
      | remove id =>
          show ((after past).erase id)[queueId]? = _
          rw [ExtTreeMap.getElem?_erase]
          unfold maxSizeOf samplesOf
          by_cases hid : id = queueId
          · subst hid
            rw [if_pos compare_self, if_pos rfl, if_pos rfl]
            rfl
          · have hne : compare id queueId ≠ .eq := fun heq => hid (LawfulEqOrd.compare_eq_iff_eq.mp heq)
            rw [if_neg hne, if_neg hid, if_neg hid]
            exact ih queueId

/-- **A report says what was seen since the one before**, in every run. It has an entry for each queue that the
manager knows, and no other, with the size of the queue, the largest depth since the size changed, the largest
number of discards and the mean delay of the samples since the last report. -/
theorem mem_getQueueMetrics_iff {past : List Op} {metric : R2RIQueueMetric} :
    metric ∈ (after past).getQueueMetrics.1 ↔ ∃ size, maxSizeOf metric.queueId past = some size ∧
      metric = expected metric.queueId size (samplesOf metric.queueId past) := by
  show metric ∈ (after past).toList.map (fun entry => entry.2.metric entry.1) ↔ _
  simp only [List.mem_map, ExtTreeMap.mem_toList_iff_getElem?_eq_some, Prod.exists, getElem?_after,
    Option.map_eq_some_iff]
  constructor
  · rintro ⟨queueId, data, ⟨size, hsize, rfl⟩, rfl⟩
    exact ⟨size, hsize, metric_dataOf queueId size _⟩
  · rintro ⟨size, hsize, hmetric⟩
    refine ⟨metric.queueId, _, ⟨size, hsize, rfl⟩, ?_⟩
    rw [metric_dataOf]
    exact hmetric.symm

/-- A queue has one entry. -/
theorem nodup_getQueueMetrics (past : List Op) :
    ((after past).getQueueMetrics.1.map R2RIQueueMetric.queueId).Nodup := by
  show (((after past).toList.map fun entry => entry.2.metric entry.1).map _).Nodup
  rw [List.map_map]
  show ((after past).toList.map Prod.fst).Nodup
  rw [ExtTreeMap.map_fst_toList_eq_keys]
  exact ExtTreeMap.nodup_keys

/-- A report of fewer than 2¹⁶ queues can be written and is read back. -/
theorem decode_publishR2ri {manager : QueueMetricManager} (hfew : manager.size < 2 ^ 16) :
    R2riQueueMetrics.decode manager.publishR2ri.1 =
      .ok ⟨manager.getQueueMetrics.1.map R2RIQueueMetric.entry⟩ := by
  have hlength : (manager.getQueueMetrics.1.map R2RIQueueMetric.entry).length = manager.size := by
    show ((manager.toList.map _).map _).length = _
    rw [List.length_map, List.length_map, ExtTreeMap.length_toList]
  obtain ⟨bytes, hbytes⟩ : ∃ bytes,
      (R2riQueueMetrics.mk (manager.getQueueMetrics.1.map R2RIQueueMetric.entry)).encode = some bytes := by
    refine ⟨_, encodeTable_eq_some.mpr ⟨.ofNat manager.size, ?_, rfl, ?_, rfl⟩⟩
    · rw [UInt16.toNat_ofNat_of_lt' hfew]
      exact hlength.symm
    · rw [List.any_eq_false]
      intro metric _ hrefused
      cases hrefused
  have hpublished : manager.publishR2ri.1 = bytes := by
    show Option.getD _ _ = bytes
    rw [hbytes]
    rfl
  rw [hpublished]
  exact R2riQueueMetrics.exact.decode_encode _ _ hbytes

/-- **The interface is told what was seen since the last report**, in every run: while there are fewer than 2¹⁶
queues, what is sent to it can be read, and has one entry for each queue that the manager knows. -/
theorem published_since_last {past : List Op} (hfew : (after past).size < 2 ^ 16) :
    ∃ received, R2riQueueMetrics.decode (after past).publishR2ri.1 = .ok received ∧
      (received.metrics.map R2riQueueMetric.queueId).Nodup ∧
      ∀ metric, metric ∈ received.metrics ↔ ∃ size, maxSizeOf metric.queueId past = some size ∧
        metric = (expected metric.queueId size (samplesOf metric.queueId past)).entry := by
  refine ⟨_, decode_publishR2ri hfew, ?_, fun metric => ?_⟩
  · show (((after past).getQueueMetrics.1.map R2RIQueueMetric.entry).map R2riQueueMetric.queueId).Nodup
    rw [List.map_map]
    exact nodup_getQueueMetrics past
  · show metric ∈ (after past).getQueueMetrics.1.map R2RIQueueMetric.entry ↔ _
    rw [List.mem_map]
    constructor
    · rintro ⟨said, hsaid, rfl⟩
      obtain ⟨size, hsize, heq⟩ := mem_getQueueMetrics_iff.mp hsaid
      exact ⟨size, hsize, congrArg R2RIQueueMetric.entry heq⟩
    · rintro ⟨size, hsize, heq⟩
      refine ⟨expected metric.queueId size (samplesOf metric.queueId past), ?_, heq.symm⟩
      exact mem_getQueueMetrics_iff.mpr ⟨size, hsize, rfl⟩

/-- The queue is resized between two packets, after a report. -/
def resized : List Op :=
  [.update 3 ⟨10, 2, 4, 30⟩, .update 3 ⟨5, 4, 1, 20⟩, .report, .update 3 ⟨5, 5, 9, 1000⟩, .add 3 5]

theorem published_since_last_resized :
    expected 3 10 (samplesOf 3 resized) = ⟨3, 10, 2, 4, 25⟩ ∧
      ∃ received, R2riQueueMetrics.decode (after resized).publishR2ri.1 = .ok received ∧
        (received.metrics.map R2riQueueMetric.queueId).Nodup ∧
        ∀ metric, metric ∈ received.metrics ↔ ∃ size, maxSizeOf metric.queueId resized = some size ∧
          metric = (expected metric.queueId size (samplesOf metric.queueId resized)).entry :=
  ⟨by decide +kernel, published_since_last (by decide +kernel)⟩

end Emane.QueueMetric
