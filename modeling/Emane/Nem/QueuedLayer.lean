import Mathlib
import Emane.Lib.Run

set_option autoImplicit false

/-! # The queue of a layer

Any number of threads hand tasks to a layer, one worker thread runs them. A producer puts its task on the
queue under the lock, if the layer runs, and writes the eventfd after it has given up the lock. The worker
waits for the eventfd, reads it, takes the whole queue, looks at the cancel flag and runs what it took.
`start` and `stop` exclude each other by the lock of the thread handle, but nothing else.

A `Layer` is the state of the queue with the place of each thread and, for the proofs, a log. `Layer.step`
is one section under the lock or one call without it, so that a run is an interleaving of the threads.
-/

namespace Emane.Nem

open Emane.Lib

/-! ## The state -/

/-- `QueueTaskKind` -/
inductive QueueTaskKind
  | downstreamPacket
  | upstreamPacket
  | downstreamControl
  | upstreamControl
  | configuration
  | fileDescriptor
  | event (eventId : ℕ)
  | timedEvent (expireMicroseconds scheduleMicroseconds fireMicroseconds : ℕ)
  deriving DecidableEq

structure QueuedTask (τ : Type*) where
  operation : τ
  kind : QueueTaskKind
  deriving DecidableEq

/-- The counters of `QueueStatistics`. -/
inductive Counter
  | queued
  | processedDownstreamPacket
  | processedUpstreamPacket
  | processedDownstreamControl
  | processedUpstreamControl
  | processedEvent
  | processedConfiguration
  | processedTimedEvent
  deriving DecidableEq

/-- The counter that the worker increments for a task. -/
def QueueTaskKind.counter : QueueTaskKind → Option Counter
  | .downstreamPacket => some .processedDownstreamPacket
  | .upstreamPacket => some .processedUpstreamPacket
  | .downstreamControl => some .processedDownstreamControl
  | .upstreamControl => some .processedUpstreamControl
  | .configuration => some .processedConfiguration
  | .fileDescriptor => none
  | .event _ => some .processedEvent
  | .timedEvent .. => some .processedTimedEvent

/-- The counter that `enqueue` increments for a task. -/
def QueueTaskKind.queuedCounter : QueueTaskKind → Option Counter
  | .fileDescriptor => none
  | _ => some .queued

inductive Lifecycle
  | created
  | running
  | stopped
  deriving DecidableEq

/-- What `epoll_wait` reports: the eventfd of the layer or a descriptor with a callback. -/
inductive Source
  | eventFd
  | descriptor (fd : ℕ)
  deriving DecidableEq

/-- The place of the worker in its loop; `events` are the reports it has not looked at yet. It waits in
`epoll_wait` when there are none. -/
inductive Worker (τ : Type*)
  | polled (events : List Source)
  | swapping (events : List Source)
  | checking (events : List Source) (batch : List (QueuedTask τ))
  | running (events : List Source) (batch : List (QueuedTask τ))
  | exited
  deriving DecidableEq

/-- The place of the thread that has the lock of the thread handle, in `start` or in `stop`. -/
inductive Controller
  | idle
  | spawning
  | signalling
  | joining
  | clearing
  deriving DecidableEq

/-- What happened. -/
inductive Event (τ : Type*)
  | accepted (task : QueuedTask τ)
  | refused (task : QueuedTask τ)
  | executed (task : QueuedTask τ)
  | dropped (batch : List (QueuedTask τ))
  | callback (fd : ℕ)
  deriving DecidableEq

structure Layer (τ : Type*) where
  queue : List (QueuedTask τ)
  cancel : Bool
  lifecycle : Lifecycle
  /-- the count in the eventfd -/
  eventCount : ℕ
  worker : Option (Worker τ)
  controller : Controller
  /-- the producers that have put a task on the queue and have not written the eventfd yet -/
  writers : List QueueTaskKind
  counters : Counter → ℕ
  /-- newest first -/
  log : List (Event τ)

variable {τ : Type*}

/-- `NemQueuedLayer::new` -/
def Layer.new : Layer τ :=
  { queue := []
    cancel := false
    lifecycle := .created
    eventCount := 0
    worker := none
    controller := .idle
    writers := []
    counters := fun _ => 0
    log := [] }

/-! ## The steps -/

/-- `increment_native_counter` with amount 1, if there is a counter. -/
def increment (counters : Counter → ℕ) : Option Counter → Counter → ℕ
  | none => counters
  | some counter => Function.update counters counter ((counters counter + 1) % 2 ^ 64)

/-- `start` under the lock of the queue. -/
def Layer.start (s : Layer τ) : Layer τ :=
  if s.worker.isSome then s
  else { s with cancel := false, lifecycle := .running, controller := .spawning }

/-- `stop` under the lock of the queue. -/
def Layer.stop (s : Layer τ) : Layer τ :=
  { s with cancel := true, lifecycle := .stopped, controller := .signalling }

/-- What `start` and `stop` do after their section under the lock of the queue; `none` while the join
waits. -/
def Layer.proceed (s : Layer τ) : Option (Layer τ) :=
  match s.controller with
  | .idle => none
  | .spawning => some { s with worker := some (.polled []), controller := .idle }
  | .signalling => some { s with eventCount := s.eventCount + 1, controller := .joining }
  | .joining =>
      match s.worker with
      | none => some { s with controller := .clearing }
      | some .exited => some { s with worker := none, controller := .clearing }
      | some _ => none
  | .clearing => some { s with cancel := false, controller := .idle }

/-- `enqueue` under the lock of the queue. -/
def Layer.enqueue (s : Layer τ) (task : QueuedTask τ) : Layer τ :=
  if s.lifecycle ≠ .running then { s with log := .refused task :: s.log }
  else { s with
    queue := s.queue ++ [task]
    writers := task.kind :: s.writers
    log := .accepted task :: s.log }

/-- The rest of `enqueue`, in one of the threads that are there. -/
def Layer.signal (s : Layer τ) (kind : QueueTaskKind) : Option (Layer τ) :=
  if kind ∈ s.writers then
    some { s with
      writers := s.writers.erase kind
      counters := increment s.counters kind.queuedCounter
      eventCount := s.eventCount + 1 }
  else none

/-- The worker is in `epoll_wait`. -/
def Worker.waits : Worker τ → Bool
  | .polled [] => true
  | _ => false

/-- `epoll_wait` returns: at most 32 descriptors, each once, the eventfd only if it can be read. -/
def Layer.wait (s : Layer τ) (events : List Source) : Option (Layer τ) :=
  if s.worker.any Worker.waits ∧ events ≠ [] ∧ events.length ≤ 32 ∧ events.Nodup ∧
      (Source.eventFd ∈ events → 0 < s.eventCount) then
    some { s with worker := some (.polled events) }
  else none

/-- The next thing the worker does after `epoll_wait`. -/
def Layer.work (s : Layer τ) : Option (Layer τ) :=
  match s.worker with
  | none => none
  | some (.polled []) => none
  | some (.polled (.eventFd :: events)) =>
      -- the read blocks while the count is zero
      if s.eventCount = 0 then none
      else some { s with eventCount := 0, worker := some (.swapping events) }
  | some (.polled (.descriptor fd :: events)) =>
      some { s with worker := some (.polled events), log := .callback fd :: s.log }
  | some (.swapping events) =>
      some { s with queue := [], worker := some (.checking events s.queue) }
  | some (.checking events batch) =>
      if s.cancel then some { s with worker := some .exited, log := .dropped batch :: s.log }
      else some { s with worker := some (.running events batch) }
  | some (.running events []) => some { s with worker := some (.polled events) }
  | some (.running events (task :: batch)) =>
      some { s with
        worker := some (.running events batch)
        counters := increment s.counters task.kind.counter
        log := .executed task :: s.log }
  | some .exited => none

inductive Action (τ : Type*)
  | start
  | stop
  | proceed
  | enqueue (task : QueuedTask τ)
  | signal (kind : QueueTaskKind)
  | wait (events : List Source)
  | work

/-- One step of a thread, `none` if the thread is not at this place or is blocked. -/
def Layer.step (s : Layer τ) : Action τ → Option (Layer τ)
  | .start => if s.controller = .idle then some s.start else none
  | .stop => if s.controller = .idle then some s.stop else none
  | .proceed => s.proceed
  | .enqueue task => some (s.enqueue task)
  | .signal kind => s.signal kind
  | .wait events => s.wait events
  | .work => s.work

/-! ## What the worker can do -/

theorem waits_iff {s : Layer τ} : s.worker.any Worker.waits = true ↔ s.worker = some (.polled []) := by
  rcases s.worker with _ | (_ | _) | _ | _ | _ | _ <;> simp [Worker.waits]

/-- The steps of the worker after `epoll_wait`, one for each place. -/
inductive Layer.Works (s : Layer τ) : Layer τ → Prop
  | read (events : List Source) (hworker : s.worker = some (.polled (.eventFd :: events)))
      (hcount : s.eventCount ≠ 0) :
      s.Works { s with eventCount := 0, worker := some (.swapping events) }
  | callback (fd : ℕ) (events : List Source)
      (hworker : s.worker = some (.polled (.descriptor fd :: events))) :
      s.Works { s with worker := some (.polled events), log := .callback fd :: s.log }
  | swap (events : List Source) (hworker : s.worker = some (.swapping events)) :
      s.Works { s with queue := [], worker := some (.checking events s.queue) }
  | leave (events : List Source) (batch : List (QueuedTask τ))
      (hworker : s.worker = some (.checking events batch)) (hcancel : s.cancel = true) :
      s.Works { s with worker := some .exited, log := .dropped batch :: s.log }
  | begin (events : List Source) (batch : List (QueuedTask τ))
      (hworker : s.worker = some (.checking events batch)) (hcancel : s.cancel = false) :
      s.Works { s with worker := some (.running events batch) }
  | execute (events : List Source) (task : QueuedTask τ) (batch : List (QueuedTask τ))
      (hworker : s.worker = some (.running events (task :: batch))) :
      s.Works { s with
        worker := some (.running events batch)
        counters := increment s.counters task.kind.counter
        log := .executed task :: s.log }
  | next (events : List Source) (hworker : s.worker = some (.running events [])) :
      s.Works { s with worker := some (.polled events) }

theorem work_eq_some_iff {s s' : Layer τ} : s.work = some s' ↔ s.Works s' := by
  constructor
  · intro h
    unfold Layer.work at h
    split at h
    · cases h
    · cases h
    · next events hworker =>
        split at h
        case isTrue => cases h
        case isFalse hcount =>
          cases h
          exact .read events hworker hcount
    · next fd events hworker =>
        cases h
        exact .callback fd events hworker
    · next events hworker =>
        cases h
        exact .swap events hworker
    · next events batch hworker =>
        split at h
        case isTrue hcancel =>
          cases h
          exact .leave events batch hworker hcancel
        case isFalse hcancel =>
          cases h
          exact .begin events batch hworker (Bool.eq_false_iff.mpr hcancel)
    · next events hworker =>
        cases h
        exact .next events hworker
    · next events task batch hworker =>
        cases h
        exact .execute events task batch hworker
    · cases h
  · intro h
    cases h with
    | read events hworker hcount => simp [Layer.work, hworker, hcount]
    | leave events batch hworker hcancel => simp [Layer.work, hworker, hcancel]
    | begin events batch hworker hcancel => simp [Layer.work, hworker, hcancel]
    | callback fd events hworker => simp [Layer.work, hworker]
    | swap events hworker => simp [Layer.work, hworker]
    | execute events task batch hworker => simp [Layer.work, hworker]
    | next events hworker => simp [Layer.work, hworker]

/-! ## The ledger -/

/-- The tasks that `enqueue` has taken, in this order. -/
def acceptedTasks : List (Event τ) → List (QueuedTask τ)
  | [] => []
  | .accepted task :: log => acceptedTasks log ++ [task]
  | _ :: log => acceptedTasks log

/-- The tasks that have left the queue, in this order, each with whether it was run. -/
def outcomes : List (Event τ) → List (QueuedTask τ × Bool)
  | [] => []
  | .executed task :: log => outcomes log ++ [(task, true)]
  | .dropped batch :: log => outcomes log ++ batch.map (·, false)
  | _ :: log => outcomes log

/-- The tasks that were run, in this order. -/
def executedTasks (log : List (Event τ)) : List (QueuedTask τ) :=
  ((outcomes log).filter Prod.snd).map Prod.fst

/-- The tasks that the worker has taken off the queue. -/
def Worker.batch : Worker τ → List (QueuedTask τ)
  | .checking _ batch => batch
  | .running _ batch => batch
  | _ => []

def Layer.inHand (s : Layer τ) : List (QueuedTask τ) := (s.worker.map Worker.batch).getD []

/-- The number of tasks that are counted by `counter`. -/
def tally (counterOf : QueueTaskKind → Option Counter) (counter : Counter)
    (kinds : List QueueTaskKind) : ℕ :=
  kinds.countP (fun kind => counterOf kind = some counter)

theorem tally_cons (counterOf : QueueTaskKind → Option Counter) (counter : Counter)
    (kind : QueueTaskKind) (kinds : List QueueTaskKind) :
    tally counterOf counter (kind :: kinds) =
      tally counterOf counter kinds + if counterOf kind = some counter then 1 else 0 := by
  simp [tally, List.countP_cons]

theorem tally_append (counterOf : QueueTaskKind → Option Counter) (counter : Counter)
    (kinds others : List QueueTaskKind) :
    tally counterOf counter (kinds ++ others) =
      tally counterOf counter kinds + tally counterOf counter others := List.countP_append

theorem tally_perm (counterOf : QueueTaskKind → Option Counter) {kinds others : List QueueTaskKind}
    (h : kinds.Perm others) (counter : Counter) :
    tally counterOf counter kinds = tally counterOf counter others := h.countP_eq _

/-- One more task is counted. -/
theorem increment_apply (counterOf : QueueTaskKind → Option Counter) {counters : Counter → ℕ}
    {counter : Counter} {n : ℕ} (h : counters counter = n % 2 ^ 64) (kind : QueueTaskKind) :
    increment counters (counterOf kind) counter =
      (n + if counterOf kind = some counter then 1 else 0) % 2 ^ 64 := by
  cases hkind : counterOf kind with
  | none => simpa [increment] using h
  | some other =>
      by_cases heq : other = counter
      · subst heq
        simp [increment, h]
      · have hne : counter ≠ other := fun h' => heq h'.symm
        simp [increment, Function.update_of_ne hne, heq, h]

/-- No task of a layer is lost, doubled or overtaken, and the counters say how many there were. -/
structure Layer.Ledger (s : Layer τ) : Prop where
  order : acceptedTasks s.log = (outcomes s.log).map Prod.fst ++ s.inHand ++ s.queue
  processed : ∀ counter, counter ≠ .queued → s.counters counter =
    tally QueueTaskKind.counter counter ((executedTasks s.log).map QueuedTask.kind) % 2 ^ 64
  /-- a task is counted when its producer writes the eventfd -/
  queued : ∃ n, n + tally QueueTaskKind.queuedCounter .queued s.writers =
      tally QueueTaskKind.queuedCounter .queued ((acceptedTasks s.log).map QueuedTask.kind) ∧
    s.counters .queued = n % 2 ^ 64

/-- A step that leaves the log, the tasks and the counters. -/
theorem Layer.Ledger.of_eq {s s' : Layer τ} (h : s.Ledger) (hlog : s'.log = s.log)
    (hqueue : s'.inHand ++ s'.queue = s.inHand ++ s.queue) (hcounters : s'.counters = s.counters)
    (hwriters : s'.writers = s.writers) : s'.Ledger := by
  obtain ⟨horder, hprocessed, hqueued⟩ := h
  refine ⟨?_, ?_, ?_⟩
  · rw [hlog, horder, List.append_assoc, List.append_assoc, hqueue]
  · rw [hlog, hcounters]
    exact hprocessed
  · rw [hlog, hcounters, hwriters]
    exact hqueued

theorem Layer.Ledger.new : (Layer.new : Layer τ).Ledger :=
  ⟨rfl, fun _ _ => rfl, 0, rfl, rfl⟩

theorem Layer.Ledger.enqueue {s : Layer τ} (h : s.Ledger) (task : QueuedTask τ) :
    (s.enqueue task).Ledger := by
  unfold Layer.enqueue
  split
  · exact ⟨h.order, h.processed, h.queued⟩
  · refine ⟨?_, h.processed, ?_⟩
    · calc acceptedTasks s.log ++ [task]
          = (outcomes s.log).map Prod.fst ++ s.inHand ++ s.queue ++ [task] := by rw [h.order]
        _ = (outcomes s.log).map Prod.fst ++ s.inHand ++ (s.queue ++ [task]) := List.append_assoc ..
    · obtain ⟨n, hn, hcount⟩ := h.queued
      refine ⟨n, ?_, hcount⟩
      simp only [acceptedTasks, List.map_append, List.map_cons, List.map_nil, tally_append, ← hn,
        tally_cons]
      simp only [tally, List.countP_nil]
      omega

theorem Layer.Ledger.signal {s s' : Layer τ} (h : s.Ledger) {kind : QueueTaskKind}
    (hstep : s.signal kind = some s') : s'.Ledger := by
  unfold Layer.signal at hstep
  split at hstep
  case isFalse => cases hstep
  case isTrue hmem =>
    cases hstep
    refine ⟨h.order, fun counter hne => ?_, ?_⟩
    · have hother : kind.queuedCounter ≠ some counter := by
        cases kind <;> simp [QueueTaskKind.queuedCounter, Ne.symm hne]
      have hcount := increment_apply QueueTaskKind.queuedCounter (h.processed counter hne) kind
      simpa [hother] using hcount
    · obtain ⟨n, hn, hcount⟩ := h.queued
      refine ⟨_, ?_, increment_apply QueueTaskKind.queuedCounter hcount kind⟩
      have hperm := tally_perm QueueTaskKind.queuedCounter (List.perm_cons_erase hmem) .queued
      rw [tally_cons] at hperm
      show n + _ + tally _ _ (s.writers.erase kind) = tally _ _ ((acceptedTasks s.log).map _)
      omega

theorem executedTasks_executed (task : QueuedTask τ) (log : List (Event τ)) :
    executedTasks (.executed task :: log) = executedTasks log ++ [task] := by
  simp [executedTasks, outcomes]

theorem executedTasks_dropped (batch : List (QueuedTask τ)) (log : List (Event τ)) :
    executedTasks (.dropped batch :: log) = executedTasks log := by
  simp [executedTasks, outcomes, List.filter_map, Function.comp_def]

theorem Layer.Ledger.proceed {s s' : Layer τ} (h : s.Ledger)
    (hspawn : s.controller = .spawning → s.worker = none) (hstep : s.proceed = some s') :
    s'.Ledger := by
  unfold Layer.proceed at hstep
  cases hcontroller : s.controller with
  | idle =>
      rw [hcontroller] at hstep
      cases hstep
  | spawning =>
      rw [hcontroller] at hstep
      cases hstep
      refine h.of_eq rfl ?_ rfl rfl
      simp [Layer.inHand, Worker.batch, hspawn hcontroller]
  | signalling =>
      rw [hcontroller] at hstep
      cases hstep
      exact h.of_eq rfl rfl rfl rfl
  | joining =>
      rw [hcontroller] at hstep
      dsimp only at hstep
      split at hstep
      · cases hstep
        exact h.of_eq rfl rfl rfl rfl
      · next hworker =>
          cases hstep
          refine h.of_eq rfl ?_ rfl rfl
          simp [Layer.inHand, Worker.batch, hworker]
      · cases hstep
  | clearing =>
      rw [hcontroller] at hstep
      cases hstep
      exact h.of_eq rfl rfl rfl rfl

theorem Layer.Ledger.wait {s s' : Layer τ} (h : s.Ledger) {events : List Source}
    (hstep : s.wait events = some s') : s'.Ledger := by
  unfold Layer.wait at hstep
  split at hstep
  case isFalse => cases hstep
  case isTrue hready =>
    cases hstep
    refine h.of_eq rfl ?_ rfl rfl
    simp [Layer.inHand, waits_iff.mp hready.1, Worker.batch]

theorem Layer.Ledger.work {s s' : Layer τ} (h : s.Ledger) (hstep : s.work = some s') : s'.Ledger := by
  have hinHand : ∀ w, s.worker = some w → s.inHand = w.batch := fun w hw => by simp [Layer.inHand, hw]
  cases work_eq_some_iff.mp hstep with
  | read events hworker =>
      refine h.of_eq rfl ?_ rfl rfl
      rw [hinHand _ hworker]
      rfl
  | callback fd events hworker =>
      refine ⟨?_, h.processed, h.queued⟩
      have horder := h.order
      rw [hinHand _ hworker] at horder
      exact horder
  | swap events hworker =>
      refine h.of_eq rfl ?_ rfl rfl
      rw [hinHand _ hworker]
      exact List.append_nil _
  | leave events batch hworker =>
      refine ⟨?_, ?_, h.queued⟩
      · have horder := h.order
        rw [hinHand _ hworker] at horder
        show acceptedTasks s.log = (outcomes s.log ++ batch.map (·, false)).map Prod.fst ++ [] ++ s.queue
        simpa [Worker.batch, Function.comp_def] using horder
      · show ∀ counter, counter ≠ .queued → s.counters counter =
          tally _ counter ((executedTasks (.dropped batch :: s.log)).map _) % 2 ^ 64
        rw [executedTasks_dropped]
        exact h.processed
  | begin events batch hworker =>
      refine h.of_eq rfl ?_ rfl rfl
      rw [hinHand _ hworker]
      rfl
  | execute events task batch hworker =>
      refine ⟨?_, fun counter hne => ?_, ?_⟩
      · have horder := h.order
        rw [hinHand _ hworker] at horder
        show acceptedTasks s.log = (outcomes s.log ++ [(task, true)]).map Prod.fst ++ batch ++ s.queue
        simpa [Worker.batch] using horder
      · show increment s.counters _ counter =
          tally _ counter ((executedTasks (.executed task :: s.log)).map _) % 2 ^ 64
        rw [increment_apply _ (h.processed counter hne), executedTasks_executed, List.map_append,
          tally_append]
        simp [tally, List.countP_cons]
      · obtain ⟨n, hn, hcount⟩ := h.queued
        refine ⟨n, hn, ?_⟩
        have hother : task.kind.counter ≠ some .queued := by
          cases task.kind <;> simp [QueueTaskKind.counter]
        simpa [hother] using increment_apply QueueTaskKind.counter hcount task.kind
  | next events hworker =>
      refine h.of_eq rfl ?_ rfl rfl
      rw [hinHand _ hworker]
      rfl

/-! ## The threads -/

/-- `stop` is under way. -/
def Controller.stopping : Controller → Bool
  | .signalling => true
  | .joining => true
  | .clearing => true
  | _ => false

/-- The reports that the worker has not looked at yet. -/
def Worker.events : Worker τ → List Source
  | .polled events => events
  | .swapping events => events
  | .checking events _ => events
  | .running events _ => events
  | .exited => []

/-- The worker has read the eventfd and not looked at the cancel flag yet, or has left. -/
def Worker.leaving : Worker τ → Bool
  | .swapping _ => true
  | .checking .. => true
  | .exited => true
  | _ => false

/-- What the places of the threads say about each other. -/
structure Layer.Coherent (s : Layer τ) : Prop where
  cancel : s.cancel = s.controller.stopping
  running : s.lifecycle = .running ↔
    s.controller = .spawning ∨ s.controller = .idle ∧ s.worker.isSome
  alone : s.controller = .spawning ∨ s.controller = .clearing → s.worker = none
  exited : s.worker = some .exited → s.controller = .signalling ∨ s.controller = .joining
  /-- a reported eventfd can be read -/
  reported : ∀ w, s.worker = some w → w.events.Nodup ∧
    (Source.eventFd ∈ w.events → 0 < s.eventCount ∧ w = .polled w.events)
  /-- the worker will come to a task on the queue -/
  wakes : s.queue = [] ∨ (∃ events, s.worker = some (.swapping events)) ∨ 0 < s.eventCount ∨ s.writers ≠ []
  /-- the worker will come to the cancel flag -/
  leaves : s.controller = .joining → s.worker.all Worker.leaving ∨ 0 < s.eventCount

theorem Layer.Coherent.new : (Layer.new : Layer τ).Coherent where
  cancel := rfl
  running := by simp [Layer.new]
  alone := fun _ => rfl
  exited := by simp [Layer.new]
  reported := by simp [Layer.new]
  wakes := .inl rfl
  leaves := by simp [Layer.new]

theorem Layer.Coherent.start {s : Layer τ} (h : s.Coherent) : s.start.Coherent := by
  unfold Layer.start
  split
  case isTrue => exact h
  case isFalse hworker =>
    have hnone : s.worker = none := by simpa using hworker
    exact
      { cancel := rfl
        running := by simp
        alone := fun _ => hnone
        exited := by simp [hnone]
        reported := by simp [hnone]
        wakes := h.wakes
        leaves := by simp }

theorem Layer.Coherent.stop {s : Layer τ} (h : s.Coherent) : s.stop.Coherent where
  cancel := rfl
  running := by simp [Layer.stop]
  alone := by simp [Layer.stop]
  exited := fun _ => .inl rfl
  reported := h.reported
  wakes := h.wakes
  leaves := by simp [Layer.stop]

theorem Layer.Coherent.enqueue {s : Layer τ} (h : s.Coherent) (task : QueuedTask τ) :
    (s.enqueue task).Coherent := by
  unfold Layer.enqueue
  split
  · exact ⟨h.cancel, h.running, h.alone, h.exited, h.reported, h.wakes, h.leaves⟩
  · exact ⟨h.cancel, h.running, h.alone, h.exited, h.reported,
      .inr (.inr (.inr (List.cons_ne_nil _ _))), h.leaves⟩

/-- The eventfd is written. -/
theorem Layer.Coherent.signal {s s' : Layer τ} (h : s.Coherent) {kind : QueueTaskKind}
    (hstep : s.signal kind = some s') : s'.Coherent := by
  unfold Layer.signal at hstep
  split at hstep
  case isFalse => cases hstep
  case isTrue =>
    cases hstep
    refine ⟨h.cancel, h.running, h.alone, h.exited, fun w hw => ?_,
      .inr (.inr (.inl (Nat.succ_pos _))), fun _ => .inr (Nat.succ_pos _)⟩
    exact ⟨(h.reported w hw).1, fun hmem => ⟨Nat.succ_pos _, ((h.reported w hw).2 hmem).2⟩⟩

theorem Layer.Coherent.proceed {s s' : Layer τ} (h : s.Coherent) (hstep : s.proceed = some s') :
    s'.Coherent := by
  obtain ⟨hcancel, hrunning, halone, hexited, hreported, hwakes, hleaves⟩ := h
  unfold Layer.proceed at hstep
  cases hcontroller : s.controller with
  | idle =>
      rw [hcontroller] at hstep
      cases hstep
  | spawning =>
      rw [hcontroller] at hstep hcancel
      cases hstep
      refine ⟨hcancel, ?_, by simp, by simp, ?_, ?_, by simp⟩
      · simpa [hcontroller] using hrunning
      · rintro w ⟨⟩
        exact ⟨List.nodup_nil, by simp [Worker.events]⟩
      · simpa [halone (.inl hcontroller)] using hwakes
  | signalling =>
      rw [hcontroller] at hstep hcancel
      cases hstep
      refine ⟨hcancel, by simpa [hcontroller] using hrunning, by simp, fun _ => .inr rfl,
        fun w hw => ?_, .inr (.inr (.inl (Nat.succ_pos _))), fun _ => .inr (Nat.succ_pos _)⟩
      exact ⟨(hreported w hw).1, fun hmem => ⟨Nat.succ_pos _, ((hreported w hw).2 hmem).2⟩⟩
  | joining =>
      rw [hcontroller] at hstep hcancel
      dsimp only at hstep
      split at hstep
      · next hworker =>
          cases hstep
          exact ⟨hcancel, by simpa [hcontroller] using hrunning, fun _ => hworker,
            by simp [hworker], by simp [hworker], hwakes, by simp⟩
      · next hworker =>
          cases hstep
          refine ⟨hcancel, by simpa [hcontroller] using hrunning, fun _ => rfl, by simp, by simp, ?_,
            by simp⟩
          simpa [hworker] using hwakes
      · cases hstep
  | clearing =>
      rw [hcontroller] at hstep
      cases hstep
      have hworker := halone (.inr hcontroller)
      refine ⟨rfl, ?_, by simp, by simp [hworker], hreported, hwakes, by simp⟩
      simpa [hcontroller, hworker] using hrunning

/-- The worker goes from one place to another. -/
theorem Layer.Coherent.of_worker {s s' : Layer τ} {w w' : Worker τ} (h : s.Coherent)
    (hworker : s.worker = some w) (hworker' : s'.worker = some w')
    (hflag : s'.cancel = s.cancel) (hlifecycle : s'.lifecycle = s.lifecycle)
    (hcontroller : s'.controller = s.controller)
    (hexited : w' = .exited → s'.controller = .signalling ∨ s'.controller = .joining)
    (hreported : w'.events.Nodup ∧
      (Source.eventFd ∈ w'.events → 0 < s'.eventCount ∧ w' = .polled w'.events))
    (hwakes : s'.queue = [] ∨ (∃ events, w' = .swapping events) ∨ 0 < s'.eventCount ∨ s'.writers ≠ [])
    (hleaves : s'.controller = .joining → w'.leaving ∨ 0 < s'.eventCount) : s'.Coherent where
  cancel := by rw [hflag, hcontroller, h.cancel]
  running := by
    rw [hlifecycle, hcontroller, hworker', h.running, hworker]
    rfl
  alone := by
    rw [hcontroller]
    intro hc
    rw [h.alone hc] at hworker
    cases hworker
  exited := by
    rw [hworker', Option.some.injEq]
    exact hexited
  reported := by
    rw [hworker']
    rintro w ⟨⟩
    exact hreported
  wakes := by simpa only [hworker', Option.some.injEq] using hwakes
  leaves := by simpa only [hworker', Option.all_some] using hleaves

/-- A task on the queue keeps its wakeup while the worker has not read the eventfd. -/
theorem Layer.Coherent.still_wakes {s : Layer τ} {w : Worker τ} (h : s.Coherent)
    (hworker : s.worker = some w) (hswaps : ∀ events, w ≠ .swapping events) :
    s.queue = [] ∨ 0 < s.eventCount ∨ s.writers ≠ [] := by
  refine h.wakes.imp_right fun hwakes => hwakes.resolve_left ?_
  rintro ⟨events, hevents⟩
  rw [hworker, Option.some.injEq] at hevents
  exact hswaps events hevents

/-- A worker in its batch has an unread eventfd while `stop` joins it. -/
theorem Layer.Coherent.still_leaves {s : Layer τ} {w : Worker τ} (h : s.Coherent)
    (hworker : s.worker = some w) (hstays : w.leaving = false) (hjoin : s.controller = .joining) :
    0 < s.eventCount := by
  refine (h.leaves hjoin).resolve_left ?_
  simp [hworker, hstays]

theorem Layer.Coherent.wait {s s' : Layer τ} (h : s.Coherent) {events : List Source}
    (hstep : s.wait events = some s') : s'.Coherent := by
  unfold Layer.wait at hstep
  split at hstep
  case isFalse => cases hstep
  case isTrue hready =>
    cases hstep
    obtain ⟨hwaits, -, -, hnodup, hcount⟩ := hready
    have hworker := waits_iff.mp hwaits
    exact h.of_worker hworker rfl rfl rfl rfl (by simp) ⟨hnodup, fun hmem => ⟨hcount hmem, rfl⟩⟩
      ((h.still_wakes hworker (by simp)).imp_right .inr) (fun hc => .inr (h.still_leaves hworker rfl hc))

/-- A worker that sees the cancel flag is about to be joined. -/
theorem Layer.Coherent.joins {s : Layer τ} {w : Worker τ} (h : s.Coherent) (hworker : s.worker = some w)
    (hflag : s.cancel = true) : s.controller = .signalling ∨ s.controller = .joining := by
  have hstopping : s.controller.stopping = true := h.cancel ▸ hflag
  cases hcontroller : s.controller with
  | idle => simp [hcontroller, Controller.stopping] at hstopping
  | spawning => simp [hcontroller, Controller.stopping] at hstopping
  | signalling => exact .inl rfl
  | joining => exact .inr rfl
  | clearing =>
      rw [h.alone (.inr hcontroller)] at hworker
      cases hworker

theorem Layer.Coherent.work {s s' : Layer τ} (h : s.Coherent) (hstep : s.work = some s') :
    s'.Coherent := by
  cases work_eq_some_iff.mp hstep with
  | read events hworker hcount =>
      obtain ⟨hfresh, hnodup⟩ := List.nodup_cons.mp (h.reported _ hworker).1
      exact h.of_worker hworker rfl rfl rfl rfl (by simp) ⟨hnodup, fun hmem => absurd hmem hfresh⟩
        (.inr (.inl ⟨events, rfl⟩)) (fun _ => .inl rfl)
  | callback fd events hworker =>
      obtain ⟨hnodup, hcount⟩ := h.reported _ hworker
      refine h.of_worker hworker rfl rfl rfl rfl (by simp) ⟨(List.nodup_cons.mp hnodup).2, fun hmem => ?_⟩
        ((h.still_wakes hworker (by simp)).imp_right .inr) (fun hc => .inr (h.still_leaves hworker rfl hc))
      exact ⟨(hcount (List.mem_cons_of_mem _ hmem)).1, rfl⟩
  | swap events hworker =>
      obtain ⟨hnodup, hcount⟩ := h.reported _ hworker
      refine h.of_worker hworker rfl rfl rfl rfl (by simp) ⟨hnodup, fun hmem => ?_⟩ (.inl rfl)
        (fun _ => .inl rfl)
      cases (hcount hmem).2
  | leave events batch hworker hstop =>
      exact h.of_worker hworker rfl rfl rfl rfl (fun _ => h.joins hworker hstop)
        ⟨List.nodup_nil, by simp [Worker.events]⟩ ((h.still_wakes hworker (by simp)).imp_right .inr)
        (fun _ => .inl rfl)
  | begin events batch hworker hstop =>
      obtain ⟨hnodup, hcount⟩ := h.reported _ hworker
      refine h.of_worker hworker rfl rfl rfl rfl (by simp) ⟨hnodup, fun hmem => ?_⟩
        ((h.still_wakes hworker (by simp)).imp_right .inr) (fun hc => ?_)
      · cases (hcount hmem).2
      · -- a worker that goes on has looked at the flag before `stop` has set it
        have hstopping := h.cancel
        change s.controller = _ at hc
        simp [hc, Controller.stopping, hstop] at hstopping
  | execute events task batch hworker =>
      obtain ⟨hnodup, hcount⟩ := h.reported _ hworker
      refine h.of_worker hworker rfl rfl rfl rfl (by simp) ⟨hnodup, fun hmem => ?_⟩
        ((h.still_wakes hworker (by simp)).imp_right .inr) (fun hc => .inr (h.still_leaves hworker rfl hc))
      cases (hcount hmem).2
  | next events hworker =>
      obtain ⟨hnodup, hcount⟩ := h.reported _ hworker
      refine h.of_worker hworker rfl rfl rfl rfl (by simp) ⟨hnodup, fun hmem => ?_⟩
        ((h.still_wakes hworker (by simp)).imp_right .inr) (fun hc => .inr (h.still_leaves hworker rfl hc))
      cases (hcount hmem).2

/-! ## Runs -/

/-- What holds in every state of every run. -/
structure Layer.Inv (s : Layer τ) : Prop where
  ledger : s.Ledger
  coherent : s.Coherent

theorem Layer.Inv.step {s s' : Layer τ} {action : Action τ} (h : s.Inv)
    (hstep : s.step action = some s') : s'.Inv := by
  obtain ⟨hledger, hcoherent⟩ := h
  cases action with
  | start =>
      simp only [Layer.step, Option.ite_none_right_eq_some, Option.some.injEq] at hstep
      obtain ⟨-, rfl⟩ := hstep
      refine ⟨?_, hcoherent.start⟩
      unfold Layer.start
      split
      · exact hledger
      · exact hledger.of_eq rfl rfl rfl rfl
  | stop =>
      simp only [Layer.step, Option.ite_none_right_eq_some, Option.some.injEq] at hstep
      obtain ⟨-, rfl⟩ := hstep
      exact ⟨hledger.of_eq rfl rfl rfl rfl, hcoherent.stop⟩
  | proceed =>
      exact ⟨hledger.proceed (fun hc => hcoherent.alone (.inl hc)) hstep, hcoherent.proceed hstep⟩
  | enqueue task =>
      cases hstep
      exact ⟨hledger.enqueue task, hcoherent.enqueue task⟩
  | signal kind => exact ⟨hledger.signal hstep, hcoherent.signal hstep⟩
  | wait events => exact ⟨hledger.wait hstep, hcoherent.wait hstep⟩
  | work => exact ⟨hledger.work hstep, hcoherent.work hstep⟩

theorem inv_of_run {actions : List (Action τ)} {s : Layer τ}
    (hrun : runSteps Layer.step .new actions = some s) : s.Inv :=
  runSteps_keeps (fun _ _ _ h hstep => h.step hstep) ⟨.new, .new⟩ hrun

/-! ## Order -/

theorem executedTasks_sublist (log : List (Event τ)) :
    (executedTasks log).Sublist ((outcomes log).map Prod.fst) :=
  List.filter_sublist.map Prod.fst

/-- Only a worker that sees the cancel flag drops tasks. -/
theorem worker_of_dropped {s s' : Layer τ} {action : Action τ} {batch : List (QueuedTask τ)}
    (hstep : s.step action = some s') (hlog : s'.log = .dropped batch :: s.log) :
    (∃ events, s.worker = some (.checking events batch)) ∧ s.cancel = true := by
  have hsame : s'.log ≠ s.log := fun h => List.cons_ne_self _ _ (hlog.symm.trans h)
  cases action with
  | start =>
      simp only [Layer.step, Option.ite_none_right_eq_some, Option.some.injEq] at hstep
      refine absurd ?_ hsame
      rw [← hstep.2, Layer.start]
      split <;> rfl
  | stop =>
      simp only [Layer.step, Option.ite_none_right_eq_some, Option.some.injEq] at hstep
      exact absurd (hstep.2 ▸ rfl) hsame
  | proceed =>
      refine absurd ?_ hsame
      simp only [Layer.step, Layer.proceed] at hstep
      grind
  | enqueue task =>
      simp only [Layer.step, Layer.enqueue, Option.some.injEq] at hstep
      subst hstep
      split at hlog <;> cases hlog
  | signal kind =>
      simp only [Layer.step, Layer.signal, Option.ite_none_right_eq_some, Option.some.injEq] at hstep
      exact absurd (hstep.2 ▸ rfl) hsame
  | wait events =>
      simp only [Layer.step, Layer.wait, Option.ite_none_right_eq_some, Option.some.injEq] at hstep
      exact absurd (hstep.2 ▸ rfl) hsame
  | work =>
      cases work_eq_some_iff.mp hstep with
      | read => exact absurd rfl hsame
      | callback => cases hlog
      | swap => exact absurd rfl hsame
      | leave events taken hworker hflag =>
          obtain ⟨⟨⟩, -⟩ := List.cons.inj hlog
          exact ⟨⟨events, hworker⟩, hflag⟩
      | begin => exact absurd rfl hsame
      | execute => cases hlog
      | next => exact absurd rfl hsame

/-- **Tasks are run in order and at most once**, in every interleaving of the threads. Every task that
was accepted has been run or dropped, is in the hand of the worker or on the queue, in the order of
acceptance, and only while `stop` is under way tasks are dropped. -/
theorem executed_in_order {actions : List (Action τ)} {s : Layer τ}
    (hrun : runSteps Layer.step .new actions = some s) :
    acceptedTasks s.log = (outcomes s.log).map Prod.fst ++ s.inHand ++ s.queue ∧
      (executedTasks s.log).Sublist (acceptedTasks s.log) ∧
      ∀ action s' batch, s.step action = some s' → s'.log = .dropped batch :: s.log →
        s.controller = .signalling ∨ s.controller = .joining := by
  obtain ⟨hledger, hcoherent⟩ := inv_of_run hrun
  refine ⟨hledger.order, ?_, fun action s' batch hstep hlog => ?_⟩
  · rw [hledger.order, List.append_assoc]
    exact (executedTasks_sublist s.log).trans (List.sublist_append_left _ _)
  · obtain ⟨⟨events, hworker⟩, hflag⟩ := worker_of_dropped hstep hlog
    exact hcoherent.joins hworker hflag

/-- The layer is stopped while the worker has taken a first task and a second one has come: the first is
dropped, the second stays on the queue, and the next worker runs it. -/
def restart : List (Action ℕ) :=
  let first : QueuedTask ℕ := ⟨1, .downstreamPacket⟩
  let second : QueuedTask ℕ := ⟨2, .upstreamPacket⟩
  [.start, .proceed, .enqueue first, .signal .downstreamPacket, .wait [.eventFd], .work, .work,
    .enqueue second, .stop, .work, .signal .upstreamPacket, .proceed, .proceed, .proceed,
    .start, .proceed, .wait [.descriptor 7, .eventFd], .work, .work, .work, .work, .work]

theorem executed_in_order_restart : ∃ s, runSteps Layer.step .new restart = some s ∧
    executedTasks s.log = [⟨2, .upstreamPacket⟩] ∧
    acceptedTasks s.log = [⟨1, .downstreamPacket⟩, ⟨2, .upstreamPacket⟩] ∧
    (executedTasks s.log).Sublist (acceptedTasks s.log) :=
  ⟨_, rfl, rfl, rfl, (@executed_in_order _ restart _ rfl).2.1⟩

/-- **The counters say what was run**, as long as nobody clears them: each counter of a kind is the number
of its tasks that were run, modulo 2⁶⁴, and the counter of the queue the number of those accepted whose
producer is done. -/
theorem counters_of_run {actions : List (Action τ)} {s : Layer τ}
    (hrun : runSteps Layer.step .new actions = some s) :
    (∀ counter, counter ≠ .queued → s.counters counter =
      (executedTasks s.log).countP (fun task => task.kind.counter = some counter) % 2 ^ 64) ∧
      (s.writers = [] → s.counters .queued =
        (acceptedTasks s.log).countP (fun task => task.kind ≠ .fileDescriptor) % 2 ^ 64) := by
  obtain ⟨⟨-, hprocessed, n, hn, hqueued⟩, -⟩ := inv_of_run hrun
  refine ⟨fun counter hne => ?_, fun hwriters => ?_⟩
  · rw [hprocessed counter hne, tally, List.countP_map]
    rfl
  · have hall : tally QueueTaskKind.queuedCounter .queued s.writers = 0 := by rw [hwriters]; rfl
    rw [hall, Nat.add_zero, tally, List.countP_map] at hn
    rw [hqueued, hn]
    refine congrArg (· % 2 ^ 64) (List.countP_congr fun task _ => ?_)
    cases hkind : task.kind <;> simp [QueueTaskKind.queuedCounter, hkind]

theorem counters_of_run_restart : ∃ s, runSteps Layer.step .new restart = some s ∧
    s.counters .queued = 2 ∧ s.counters .processedDownstreamPacket = 0 ∧
    s.counters .processedUpstreamPacket = 1 ∧
    s.counters .processedUpstreamPacket =
      (executedTasks s.log).countP (fun task => task.kind.counter = some .processedUpstreamPacket) % 2 ^ 64 :=
  ⟨_, rfl, rfl, rfl, rfl, (@counters_of_run _ restart _ rfl).1 _ (by decide)⟩

/-! ## Progress -/

/-- **No wakeup is lost**, in every interleaving of the threads. A worker that has not left can go on
unless it waits, one that waits with nothing to wake it and no producer under way has left nothing behind,
and a layer that takes tasks has a worker that has not left, or `start` is about to spawn it: it takes
tasks from the moment `start` has given up the lock of the queue. -/
theorem no_lost_wakeup {actions : List (Action τ)} {s : Layer τ}
    (hrun : runSteps Layer.step .new actions = some s) :
    (∀ w, s.worker = some w → w ≠ .exited → w ≠ .polled [] → s.work.isSome) ∧
      (s.worker = some (.polled []) → s.eventCount = 0 → s.writers = [] →
        acceptedTasks s.log = (outcomes s.log).map Prod.fst) ∧
      (s.lifecycle = .running →
        s.controller = .spawning ∨ ∃ w, s.worker = some w ∧ w ≠ .exited) := by
  obtain ⟨⟨horder, -, -⟩, hcoherent⟩ := inv_of_run hrun
  refine ⟨fun w hworker hexited hwaits => ?_, fun hworker hcount hwriters => ?_, fun hrunning => ?_⟩
  · cases w with
    | polled events =>
        cases events with
        | nil => exact absurd rfl hwaits
        | cons source events =>
            cases source with
            | eventFd =>
                -- the eventfd was reported and nobody else reads it
                have hcount := ((hcoherent.reported _ hworker).2 List.mem_cons_self).1
                exact Option.isSome_of_eq_some
                  (work_eq_some_iff.mpr (.read events hworker (Nat.ne_of_gt hcount)))
            | descriptor fd =>
                exact Option.isSome_of_eq_some (work_eq_some_iff.mpr (.callback fd events hworker))
    | swapping events => exact Option.isSome_of_eq_some (work_eq_some_iff.mpr (.swap events hworker))
    | checking events batch =>
        cases hflag : s.cancel with
        | true => exact Option.isSome_of_eq_some (work_eq_some_iff.mpr (.leave events batch hworker hflag))
        | false => exact Option.isSome_of_eq_some (work_eq_some_iff.mpr (.begin events batch hworker hflag))
    | running events batch =>
        cases batch with
        | nil => exact Option.isSome_of_eq_some (work_eq_some_iff.mpr (.next events hworker))
        | cons task batch =>
            exact Option.isSome_of_eq_some (work_eq_some_iff.mpr (.execute events task batch hworker))
    | exited => exact absurd rfl hexited
  · have hqueue : s.queue = [] := by
      simpa [hcount, hwriters] using hcoherent.still_wakes hworker (by simp)
    simpa [hqueue, Layer.inHand, hworker, Worker.batch] using horder
  · obtain hspawning | ⟨hidle, hthere⟩ := hcoherent.running.mp hrunning
    · exact .inl hspawning
    · obtain ⟨w, hworker⟩ := Option.isSome_iff_exists.mp hthere
      refine .inr ⟨w, hworker, fun hexited => ?_⟩
      have hcontroller := hcoherent.exited (hexited ▸ hworker)
      simp [hidle] at hcontroller

theorem no_lost_wakeup_restart : ∃ s, runSteps Layer.step .new (restart ++ [.work]) = some s ∧
    acceptedTasks s.log = (outcomes s.log).map Prod.fst ∧
    (s.controller = .spawning ∨ ∃ w, s.worker = some w ∧ w ≠ .exited) :=
  ⟨_, rfl, (@no_lost_wakeup _ (restart ++ [.work]) _ rfl).2.1 rfl rfl rfl,
    (@no_lost_wakeup _ (restart ++ [.work]) _ rfl).2.2 rfl⟩

/-- A task is accepted before there is a worker: `start` has stored the lifecycle and not yet spawned. -/
example : ∃ s, runSteps Layer.step .new [.start, .enqueue ⟨1, .downstreamPacket⟩] = some s ∧
    acceptedTasks s.log = [(⟨1, .downstreamPacket⟩ : QueuedTask ℕ)] ∧ s.worker = none ∧
    s.controller = .spawning :=
  ⟨_, rfl, rfl, rfl, rfl⟩

/-- Actions of the worker. -/
def Action.ofWorker : Action τ → Prop
  | .wait _ => True
  | .work => True
  | _ => False

/-- The worker alone comes to its end. -/
def Layer.Leaves (s : Layer τ) : Prop :=
  ∃ actions : List (Action τ), (∀ action ∈ actions, action.ofWorker) ∧
    ∃ s', runSteps Layer.step s actions = some s' ∧ s'.worker = some .exited ∧
      s'.controller = s.controller

theorem Layer.Leaves.of_step {s s₁ : Layer τ} (action : Action τ) (hworker : action.ofWorker)
    (hstep : s.step action = some s₁) (hcontroller : s₁.controller = s.controller) (h : s₁.Leaves) :
    s.Leaves := by
  obtain ⟨actions, hactions, s', hrun, hexited, hsame⟩ := h
  refine ⟨action :: actions, List.forall_mem_cons.mpr ⟨hworker, hactions⟩, s', ?_, hexited,
    hsame.trans hcontroller⟩
  rw [runSteps_cons, hstep]
  exact hrun

theorem Layer.Works.leaves {s s₁ : Layer τ} (h : s.Works s₁) (hcontroller : s₁.controller = s.controller)
    (hleaves : s₁.Leaves) : s.Leaves :=
  hleaves.of_step .work trivial (work_eq_some_iff.mpr h) hcontroller

theorem leaves_of_checking {s : Layer τ} (hflag : s.cancel = true) {events : List Source}
    {batch : List (QueuedTask τ)} (hworker : s.worker = some (.checking events batch)) : s.Leaves := by
  refine Layer.Works.leaves (.leave events batch hworker hflag) rfl ?_
  exact ⟨[], by simp, _, rfl, rfl, rfl⟩

theorem leaves_of_swapping {s : Layer τ} (hflag : s.cancel = true) {events : List Source}
    (hworker : s.worker = some (.swapping events)) : s.Leaves := by
  refine Layer.Works.leaves (.swap events hworker) rfl ?_
  exact leaves_of_checking hflag rfl

theorem leaves_of_reading {s : Layer τ} (hflag : s.cancel = true) (hcount : 0 < s.eventCount)
    {events : List Source} (hworker : s.worker = some (.polled (.eventFd :: events))) : s.Leaves := by
  refine Layer.Works.leaves (.read events hworker (Nat.ne_of_gt hcount)) rfl ?_
  exact leaves_of_swapping hflag rfl

/-- The worker looks at what was reported until it comes to the eventfd, which is reported to it when
nothing else is left. -/
theorem leaves_of_polled {events : List Source} {s : Layer τ} (hflag : s.cancel = true)
    (hcount : 0 < s.eventCount) (hworker : s.worker = some (.polled events)) : s.Leaves := by
  induction events generalizing s with
  | nil =>
      have hwait : s.wait [.eventFd] = some { s with worker := some (.polled [.eventFd]) } := by
        simp [Layer.wait, waits_iff.mpr hworker, hcount]
      exact Layer.Leaves.of_step (.wait [.eventFd]) trivial hwait rfl (leaves_of_reading hflag hcount rfl)
  | cons source events ih =>
      cases source with
      | eventFd => exact leaves_of_reading hflag hcount hworker
      | descriptor fd =>
          refine Layer.Works.leaves (.callback fd events hworker) rfl ?_
          exact ih hflag hcount rfl

theorem leaves_of_running {events : List Source} {batch : List (QueuedTask τ)} {s : Layer τ}
    (hflag : s.cancel = true) (hcount : 0 < s.eventCount)
    (hworker : s.worker = some (.running events batch)) : s.Leaves := by
  induction batch generalizing s with
  | nil =>
      refine Layer.Works.leaves (.next events hworker) rfl ?_
      exact leaves_of_polled hflag hcount rfl
  | cons task batch ih =>
      refine Layer.Works.leaves (.execute events task batch hworker) rfl ?_
      exact ih hflag hcount rfl

/-- **`stop` comes to its end**: whatever the threads have done, once it waits for the worker, the worker
alone comes to its end, and then the handle is taken and the cancel flag is reset. -/
theorem stop_completes {actions : List (Action τ)} {s : Layer τ}
    (hrun : runSteps Layer.step .new actions = some s) (hjoin : s.controller = .joining) :
    ∃ more : List (Action τ), (∀ action ∈ more, action.ofWorker) ∧
      ∃ s', runSteps Layer.step s (more ++ [.proceed, .proceed]) = some s' ∧
        s'.worker = none ∧ s'.controller = .idle ∧ s'.cancel = false := by
  obtain ⟨-, hcoherent⟩ := inv_of_run hrun
  have hflag : s.cancel = true := by rw [hcoherent.cancel, hjoin]; rfl
  cases hworker : s.worker with
  | none =>
      refine ⟨[], by simp, { s with cancel := false, controller := .idle }, ?_, hworker, rfl, rfl⟩
      simp [runSteps, Layer.step, Layer.proceed, hjoin, hworker]
  | some w =>
      have hleaves : s.Leaves := by
        cases w with
        | polled events => exact leaves_of_polled hflag (hcoherent.still_leaves hworker rfl hjoin) hworker
        | swapping events => exact leaves_of_swapping hflag hworker
        | checking events batch => exact leaves_of_checking hflag hworker
        | running events batch =>
            exact leaves_of_running hflag (hcoherent.still_leaves hworker rfl hjoin) hworker
        | exited => exact ⟨[], by simp, s, rfl, hworker, rfl⟩
      obtain ⟨more, hmore, s₁, hrun₁, hexited, hsame⟩ := hleaves
      refine ⟨more, hmore, { s₁ with worker := none, cancel := false, controller := .idle }, ?_, rfl, rfl,
        rfl⟩
      refine runSteps_append hrun₁ ?_
      simp [runSteps, Layer.step, Layer.proceed, hsame, hjoin, hexited]

theorem stop_completes_restart : ∃ s, runSteps Layer.step .new (restart ++ [.stop, .proceed]) = some s ∧
    ∃ more : List (Action ℕ), (∀ action ∈ more, action.ofWorker) ∧
      ∃ s', runSteps Layer.step s (more ++ [.proceed, .proceed]) = some s' ∧
        s'.worker = none ∧ s'.controller = .idle ∧ s'.cancel = false :=
  ⟨_, rfl, @stop_completes _ (restart ++ [.stop, .proceed]) _ rfl rfl⟩

end Emane.Nem
