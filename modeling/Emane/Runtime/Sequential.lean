import Mathlib
import Emane.LegacyOta.Prost
import Emane.Lib.Run
import Emane.Runtime.World

set_option autoImplicit false

/-! # Layers as sequential processes

Once the layers of a platform have been started, every call goes through a queue, and the threads can interleave
as they like: each layer is a process on its own. Its plugin is in the state, and has sent what it sends, when it
is given the operations that its worker has run, one after the other (`runPlugin`), and what it has handed to
another layer stands among the tasks of that layer in the order in which it was sent (`layers_sequential`).

The invariant is `World.Sequential`. What a thread still has to do begins with the orders of what it routed last
and goes on with what is still to be routed (`Tidy`), so that orders are done in the order of the routing.
-/

namespace Emane.Runtime

open Emane.Lib
open Emane.LegacyOta (Prost protobuf)
open Emane.Nem (QueueTaskKind QueuedTask)

variable {σ : Type}

/-! ## A plugin on its own -/

section

variable (prost : Prost) (platform : Platform) (react : LayerId → σ → Operation → σ × List Sent)

/-- A plugin is given operations one after the other. -/
def runPlugin (id : LayerId) : σ → List Operation → σ × List Sent
  | plugin, [] => (plugin, [])
  | plugin, operation :: operations =>
      let after := react id plugin operation
      let rest := runPlugin id after.1 operations
      (rest.1, after.2 ++ rest.2)

/-- The orders for what a layer sends, each routed with a sequence number. -/
def routing (id : LayerId) : List Sent → List UInt16 → List Order
  | sent :: more, number :: numbers =>
      (route prost platform id number sent).1.map Delivery.order ++ routing id more numbers
  | _, _ => []

theorem runPlugin_append (id : LayerId) (plugin : σ) (operations more : List Operation) :
    runPlugin react id plugin (operations ++ more) =
      ((runPlugin react id (runPlugin react id plugin operations).1 more).1,
        (runPlugin react id plugin operations).2 ++
          (runPlugin react id (runPlugin react id plugin operations).1 more).2) := by
  induction operations generalizing plugin with
  | nil => rfl
  | cons operation operations ih =>
      show ((runPlugin react id (react id plugin operation).1 (operations ++ more)).1,
        (react id plugin operation).2 ++
          (runPlugin react id (react id plugin operation).1 (operations ++ more)).2) = _
      rw [ih, ← List.append_assoc]
      rfl

theorem runPlugin_singleton (id : LayerId) (plugin : σ) (operation : Operation) :
    runPlugin react id plugin [operation] = react id plugin operation := by
  show ((react id plugin operation).1, (react id plugin operation).2 ++ []) = _
  rw [List.append_nil]

theorem routing_append (id : LayerId) {done : List Sent} {numbers : List UInt16}
    (hlength : numbers.length = done.length) (sent : Sent) (number : UInt16) :
    routing prost platform id (done ++ [sent]) (numbers ++ [number]) =
      routing prost platform id done numbers ++ (route prost platform id number sent).1.map Delivery.order := by
  induction done generalizing numbers with
  | nil =>
      obtain rfl := List.length_eq_zero_iff.mp hlength
      exact List.append_nil _
  | cons first done ih =>
      obtain ⟨n, numbers, rfl⟩ := List.exists_cons_of_length_eq_add_one hlength
      show _ ++ routing prost platform id (done ++ [sent]) (numbers ++ [number]) = _
      rw [ih (Nat.succ.inj hlength), ← List.append_assoc]
      rfl

end

/-! ## What the worker has run -/

/-- The operations that the worker of a layer has run, in this order. -/
def operations (layer : Queue) : List Operation :=
  (Nem.executedTasks layer.log).map fun task => task.operation.2

/-- Only the worker runs operations. -/
theorem operations_step {s s' : Queue} {action : Nem.Action (Thread × Operation)}
    (hstep : s.step action = some s') (hwork : action ≠ .work) : operations s' = operations s := by
  unfold operations
  by_cases henqueue : ∀ task, action ≠ .enqueue task
  · rw [log_step hstep hwork henqueue]
  · push Not at henqueue
    obtain ⟨task, rfl⟩ := henqueue
    cases hstep
    unfold Nem.Layer.enqueue
    split <;> rfl

/-- The worker runs the next operation, if it is at this place. -/
theorem operations_work {s s' : Queue} (hwork : s.work = some s') :
    operations s' = operations s ++ (nextOperation s).toList := by
  unfold operations
  cases Nem.work_eq_some_iff.mp hwork with
  | leave events batch hworker =>
      rw [Nem.executedTasks_dropped]
      simp [nextOperation, hworker]
  | execute events task batch hworker =>
      rw [Nem.executedTasks_executed, List.map_append]
      simp [nextOperation, hworker]
  | read events hworker => simp [nextOperation, hworker]
  | callback fd events hworker => simp [nextOperation, hworker, Nem.executedTasks, Nem.outcomes]
  | swap events hworker => simp [nextOperation, hworker]
  | begin events batch hworker => simp [nextOperation, hworker]
  | next events hworker => simp [nextOperation, hworker]

/-! ## What a thread has to do -/

/-- What is still to be routed. -/
def Entry.toSent : Entry → Option Sent
  | .send _ sent => some sent
  | .order _ _ => none

/-- No order was refused, only the worker of a layer routes what its plugin sends, and the orders come first. -/
structure Tidy (thread : Thread) (entries : List Entry) : Prop where
  fresh : ∀ next, Entry.order next true ∉ entries
  own : ∀ id sent, Entry.send id sent ∈ entries → thread = .worker id
  sorted : entries.Pairwise fun entry later => later.toOrder.isSome → entry.toOrder.isSome

theorem tidy_nil (thread : Thread) : Tidy thread [] where
  fresh _ := List.not_mem_nil
  own _ _ hmem := absurd hmem List.not_mem_nil
  sorted := .nil

theorem Tidy.tail {thread : Thread} {entry : Entry} {rest : List Entry} (h : Tidy thread (entry :: rest)) :
    Tidy thread rest where
  fresh next hmem := h.fresh next (List.mem_cons_of_mem _ hmem)
  own id sent hmem := h.own id sent (List.mem_cons_of_mem _ hmem)
  sorted := (List.pairwise_cons.mp h.sorted).2

/-- Behind something to be routed there are no orders. -/
theorem Tidy.orders_of_send {thread : Thread} {id : LayerId} {sent : Sent} {rest : List Entry}
    (h : Tidy thread (.send id sent :: rest)) : rest.filterMap Entry.toOrder = [] := by
  rw [List.filterMap_eq_nil_iff]
  intro entry hentry
  have hsome := (List.pairwise_cons.mp h.sorted).1 entry hentry
  cases hentry' : entry.toOrder with
  | none => rfl
  | some order =>
      rw [hentry'] at hsome
      cases hsome rfl

theorem Tidy.orders_append {thread : Thread} {rest : List Entry} (h : Tidy thread rest) (orders : List Order) :
    Tidy thread (orders.map (Entry.order · false) ++ rest) := by
  induction orders with
  | nil => exact h
  | cons order orders ih =>
      refine ⟨fun next hmem => ?_, fun id sent hmem => ?_, ?_⟩
      · rcases List.mem_cons.mp hmem with heq | hmem
        · cases heq
        · exact ih.fresh next hmem
      · rcases List.mem_cons.mp hmem with heq | hmem
        · cases heq
        · exact ih.own id sent hmem
      · exact List.pairwise_cons.mpr ⟨fun _ _ _ => rfl, ih.sorted⟩

theorem tidy_sends (id : LayerId) (sent : List Sent) : Tidy (.worker id) (sent.map (Entry.send id)) where
  fresh next hmem := by
    obtain ⟨_, -, heq⟩ := List.mem_map.mp hmem
    cases heq
  own id' sent' hmem := by
    obtain ⟨_, -, heq⟩ := List.mem_map.mp hmem
    cases heq
    rfl
  sorted := by
    rw [List.pairwise_map]
    exact List.pairwise_of_forall fun _ _ hsome => hsome

theorem sends_of_sent (id : LayerId) (sent : List Sent) :
    (sent.map (Entry.send id)).filterMap Entry.toSent = sent := by
  rw [List.filterMap_map]
  exact List.filterMap_some

theorem sends_of_fresh (orders : List Order) :
    (orders.map (Entry.order · false)).filterMap Entry.toSent = [] := by
  rw [List.filterMap_map]
  exact List.filterMap_eq_nil_iff.mpr fun _ _ => rfl

/-! ## The invariant -/

/-- The fate of an order when all layers run. -/
def Order.fate : Order → Fate
  | .hand _ _ => .queued
  | .leave _ => .left

/-- What a plugin has done: it has been given what its worker has run, and a part of what it has sent has been
routed. -/
def World.Answers (prost : Prost) (platform : Platform) (react : LayerId → σ → Operation → σ × List Sent)
    (start : LayerId → σ) (w : World σ) (id : LayerId) (done : List Sent) (numbers : List UInt16) : Prop :=
  runPlugin react id (start id) (operations (w.layers id)) =
      (w.plugins id, done ++ (w.outbox (.worker id)).filterMap Entry.toSent) ∧
    numbers.length = done.length ∧ w.routed (.worker id) = routing prost platform id done numbers

/-- What holds while all layers that are given something run. -/
structure World.Sequential (prost : Prost) (platform : Platform)
    (react : LayerId → σ → Operation → σ × List Sent) (start : LayerId → σ) (w : World σ) : Prop where
  tidy : ∀ thread, Tidy thread (w.outbox thread)
  order : ∀ thread, w.routed thread = (w.handled thread).map Prod.fst ++ (w.outbox thread).filterMap Entry.toOrder
  fates : ∀ thread order fate, (order, fate) ∈ w.handled thread → fate = order.fate
  answers : ∀ id, ∃ done numbers, w.Answers prost platform react start id done numbers

/-- The layer that is given the order at the front of a thread's list runs. -/
def World.frontRuns (w : World σ) (thread : Thread) : Bool :=
  match w.outbox thread with
  | .order (.hand target _) _ :: _ => (w.layers target).lifecycle = .running
  | _ => true

/-- No layer is stopped, threads enter the layers through their queues, and a layer runs when it is given
something. -/
def World.ready (w : World σ) : Move → Bool
  | .turn _ .stop => false
  | .enter _ _ _ => false
  | .deliver thread => w.frontRuns thread
  | _ => true

section

variable {prost : Prost} {platform : Platform} {react : LayerId → σ → Operation → σ × List Sent}
  {start : LayerId → σ} {w w' : World σ} {thread : Thread} {id : LayerId} {rest : List Entry}

theorem World.sequential_new (start : LayerId → σ) :
    (World.new start).Sequential prost platform react start where
  tidy := tidy_nil
  order _ := rfl
  fates _ _ _ hmem := absurd hmem List.not_mem_nil
  answers _ := ⟨[], [], rfl, rfl, rfl⟩

/-- A layer makes a step in which no operation is run. -/
theorem World.Sequential.setLayer (h : w.Sequential prost platform react start) {layer : Queue}
    (hlayer : operations layer = operations (w.layers id)) :
    (w.setLayer id layer).Sequential prost platform react start where
  tidy := h.tidy
  order := h.order
  fates := h.fates
  answers id' := by
    obtain ⟨done, numbers, hplugin, hnumbers⟩ := h.answers id'
    refine ⟨done, numbers, Eq.trans ?_ hplugin, hnumbers⟩
    change runPlugin react id' (start id') (operations (Function.update w.layers id layer id')) = _
    by_cases hid : id' = id
    · subst hid
      rw [Function.update_self, hlayer]
    · rw [Function.update_of_ne hid]

/-- The worker of a layer runs an operation. -/
theorem World.Sequential.execute (h : w.Sequential prost platform react start)
    (hempty : w.outbox (.worker id) = []) {layer : Queue} {operation : Operation}
    (hlayer : operations layer = operations (w.layers id) ++ [operation]) :
    ((w.setLayer id layer).perform react (.worker id) id operation []).Sequential prost platform react start where
  tidy thread := by
    dsimp only [World.perform, World.setLayer]
    by_cases hthread : thread = .worker id
    · subst hthread
      rw [Function.update_self, List.append_nil]
      exact tidy_sends id _
    · rw [Function.update_of_ne hthread]
      exact h.tidy thread
  order thread := by
    dsimp only [World.perform, World.setLayer]
    by_cases hthread : thread = .worker id
    · subst hthread
      have horder := h.order (.worker id)
      rw [hempty] at horder
      rw [Function.update_self, List.append_nil, orders_of_sent]
      exact horder
    · rw [Function.update_of_ne hthread]
      exact h.order thread
  fates := h.fates
  answers id' := by
    obtain ⟨done, numbers, hplugin, hnumbers, hrouted⟩ := h.answers id'
    refine ⟨done, numbers, ?_, hnumbers, hrouted⟩
    dsimp only [World.perform, World.setLayer]
    by_cases hid : id' = id
    · subst hid
      rw [hempty, List.filterMap_nil, List.append_nil] at hplugin
      rw [Function.update_self, Function.update_self, Function.update_self, hlayer, runPlugin_append, hplugin,
        runPlugin_singleton, List.append_nil, sends_of_sent]
    · have hthread : Thread.worker id' ≠ .worker id := fun heq => hid (Thread.worker.inj heq)
      rw [Function.update_of_ne hid, Function.update_of_ne hid, Function.update_of_ne hthread]
      exact hplugin

/-- What a plugin has sent is routed. -/
theorem World.Sequential.dispatch (h : w.Sequential prost platform react start) {sent : Sent}
    (hrest : w.outbox thread = .send id sent :: rest) :
    (w.dispatch prost platform thread id sent rest).Sequential prost platform react start := by
  have htidy := h.tidy thread
  rw [hrest] at htidy
  -- only the worker of the layer has this to do
  obtain rfl : thread = .worker id := htidy.own id sent List.mem_cons_self
  refine ⟨fun thread => ?_, fun thread => ?_, h.fates, fun id' => ?_⟩
  · dsimp only [World.dispatch]
    by_cases hthread : thread = .worker id
    · subst hthread
      rw [Function.update_self]
      exact htidy.tail.orders_append _
    · rw [Function.update_of_ne hthread]
      exact h.tidy thread
  · dsimp only [World.dispatch]
    by_cases hthread : thread = .worker id
    · subst hthread
      have horder := h.order (.worker id)
      rw [hrest, List.filterMap_cons_none (show Entry.toOrder (.send id sent) = none from rfl),
        htidy.orders_of_send, List.append_nil] at horder
      rw [Function.update_self, Function.update_self, List.filterMap_append, orders_of_fresh,
        htidy.orders_of_send, List.append_nil, horder]
    · rw [Function.update_of_ne hthread, Function.update_of_ne hthread]
      exact h.order thread
  · obtain ⟨done, numbers, hplugin, hnumbers, hrouted⟩ := h.answers id'
    dsimp only [World.Answers, World.dispatch]
    by_cases hid : id' = id
    · subst hid
      rw [hrest, List.filterMap_cons_some (show Entry.toSent (.send id' sent) = some sent from rfl)] at hplugin
      refine ⟨done ++ [sent], numbers ++ [w.sequences id'.1], ?_, ?_, ?_⟩
      · rw [Function.update_self, List.filterMap_append, sends_of_fresh, List.nil_append, List.append_assoc]
        exact hplugin
      · rw [List.length_append, List.length_append, hnumbers]
        rfl
      · rw [Function.update_self, hrouted, routing_append prost platform id' hnumbers]
    · have hthread : Thread.worker id' ≠ .worker id := fun heq => hid (Thread.worker.inj heq)
      refine ⟨done, numbers, ?_, hnumbers, ?_⟩
      · rw [Function.update_of_ne hthread]
        exact hplugin
      · rw [Function.update_of_ne hthread]
        exact hrouted

/-- An order is done. -/
theorem World.Sequential.handle (h : w.Sequential prost platform react start) {order : Order} {refused : Bool}
    (hrest : w.outbox thread = .order order refused :: rest) :
    (w.handle thread order order.fate rest).Sequential prost platform react start := by
  have htidy := h.tidy thread
  rw [hrest] at htidy
  refine ⟨fun thread' => ?_, fun thread' => ?_, fun thread' order' fate hmem => ?_, fun id => ?_⟩
  · dsimp only [World.handle]
    by_cases hthread : thread' = thread
    · subst hthread
      rw [Function.update_self]
      exact htidy.tail
    · rw [Function.update_of_ne hthread]
      exact h.tidy thread'
  · dsimp only [World.handle]
    by_cases hthread : thread' = thread
    · subst hthread
      have horder := h.order thread'
      rw [hrest, List.filterMap_cons_some (show Entry.toOrder (.order order refused) = some order from rfl)]
        at horder
      rw [Function.update_self, Function.update_self, List.map_append, List.append_assoc]
      exact horder
    · rw [Function.update_of_ne hthread, Function.update_of_ne hthread]
      exact h.order thread'
  · dsimp only [World.handle] at hmem
    by_cases hthread : thread' = thread
    · subst hthread
      rw [Function.update_self] at hmem
      rcases List.mem_append.mp hmem with hmem | hmem
      · exact h.fates thread' order' fate hmem
      · cases List.mem_singleton.mp hmem
        rfl
    · rw [Function.update_of_ne hthread] at hmem
      exact h.fates thread' order' fate hmem
  · obtain ⟨done, numbers, hplugin, hnumbers, hrouted⟩ := h.answers id
    refine ⟨done, numbers, ?_, hnumbers, hrouted⟩
    dsimp only [World.handle]
    by_cases hthread : Thread.worker id = thread
    · subst hthread
      rw [hrest, List.filterMap_cons_none (show Entry.toSent (.order order refused) = none from rfl)] at hplugin
      rw [Function.update_self]
      exact hplugin
    · rw [Function.update_of_ne hthread]
      exact hplugin

/-- A thread that has nothing to do is given a call for a layer. -/
theorem World.Sequential.inject (h : w.Sequential prost platform react start) {n : ℕ}
    (hempty : w.outbox (.outside n) = []) (order : Order) :
    { w with
      outbox := Function.update w.outbox (.outside n) [.order order false]
      routed := Function.update w.routed (.outside n) (w.routed (.outside n) ++ [order]) }.Sequential
        prost platform react start := by
  refine ⟨fun thread => ?_, fun thread => ?_, h.fates, fun id => ?_⟩
  · dsimp only
    by_cases hthread : thread = .outside n
    · subst hthread
      rw [Function.update_self]
      exact (tidy_nil _).orders_append [order]
    · rw [Function.update_of_ne hthread]
      exact h.tidy thread
  · dsimp only
    by_cases hthread : thread = .outside n
    · subst hthread
      have horder := h.order (.outside n)
      rw [hempty, List.filterMap_nil, List.append_nil] at horder
      rw [Function.update_self, Function.update_self, horder]
      rfl
    · rw [Function.update_of_ne hthread, Function.update_of_ne hthread]
      exact h.order thread
  · obtain ⟨done, numbers, hplugin, hnumbers, hrouted⟩ := h.answers id
    have hthread : Thread.worker id ≠ .outside n := by simp
    refine ⟨done, numbers, ?_, hnumbers, ?_⟩
    · dsimp only
      rw [Function.update_of_ne hthread]
      exact hplugin
    · dsimp only
      rw [Function.update_of_ne hthread]
      exact hrouted

theorem World.Sequential.deliver (h : w.Sequential prost platform react start) (hready : w.frontRuns thread = true)
    (hstep : w.deliver prost platform react thread = some w') : w'.Sequential prost platform react start := by
  unfold World.deliver at hstep
  split at hstep
  · cases hstep
  · next hrest =>
      cases hstep
      exact h.dispatch hrest
  · next hrest =>
      cases hstep
      exact h.handle hrest
  · next target operation rest hrest =>
      have hrunning : (w.layers target).lifecycle = .running :=
        by simpa [World.frontRuns, hrest] using hready
      rw [if_pos hrunning] at hstep
      cases hstep
      have hlayer := @operations_step (w.layers target) _
        (.enqueue ⟨(thread, operation), operation.kind⟩) rfl (by simp)
      exact (h.setLayer hlayer).handle hrest
  · next target operation rest hrest =>
      -- no order was refused
      refine absurd ?_ ((h.tidy thread).fresh (.hand target operation))
      rw [hrest]
      exact List.mem_cons_self

theorem World.Sequential.work (h : w.Sequential prost platform react start)
    (hstep : w.work react id = some w') : w'.Sequential prost platform react start := by
  unfold World.work at hstep
  split at hstep
  case isFalse => cases hstep
  case isTrue hempty =>
    obtain ⟨layer, hwork, heq⟩ := Option.map_eq_some_iff.mp hstep
    have hlayer := operations_work hwork
    cases hnext : nextOperation (w.layers id) with
    | none =>
        rw [hnext] at heq hlayer
        rw [← heq]
        exact h.setLayer (hlayer.trans (List.append_nil _))
    | some operation =>
        rw [hnext] at heq hlayer
        rw [← heq]
        exact h.execute (List.isEmpty_iff.mp hempty) hlayer

theorem World.Sequential.turn (h : w.Sequential prost platform react start)
    {action : Nem.Action (Thread × Operation)} (hwork : action ≠ .work)
    (hstep : ((w.layers id).step action).map (w.setLayer id) = some w') :
    w'.Sequential prost platform react start := by
  obtain ⟨layer, hlayer, rfl⟩ := Option.map_eq_some_iff.mp hstep
  exact h.setLayer (operations_step hlayer hwork)

theorem World.Sequential.step {move : Move} (h : w.Sequential prost platform react start)
    (hready : w.ready move = true) (hstep : w.step prost platform react move = some w') :
    w'.Sequential prost platform react start := by
  cases move with
  | turn id action =>
      cases action with
      | enqueue task => cases hstep
      | work => exact h.work hstep
      | start => exact h.turn (by simp) hstep
      | stop => cases hready
      | proceed => exact h.turn (by simp) hstep
      | signal kind => exact h.turn (by simp) hstep
      | wait events => exact h.turn (by simp) hstep
  | deliver thread => exact h.deliver hready hstep
  | enter n id operation => cases hready
  | inject n target operation =>
      simp only [World.step, Option.ite_none_right_eq_some, Option.some.injEq] at hstep
      obtain ⟨hempty, rfl⟩ := hstep
      exact h.inject (List.isEmpty_iff.mp hempty) _

/-! ## The layers as processes -/

/-- The operation that an order hands to a layer. -/
def handedTo (target : LayerId) : Order → Option Operation
  | .hand layer operation => if layer = target then some operation else none
  | .leave _ => none

/-- Only orders that are put on a queue hand something to a layer. -/
theorem queuedAt_fate (target : LayerId) (order : Order) :
    queuedAt target (order, order.fate) = handedTo target order := by
  cases order <;> rfl

/-- What a thread has put on the queue of a layer is what it has handed to it. -/
theorem World.Sequential.queued (h : w.Sequential prost platform react start) (thread : Thread)
    (target : LayerId) :
    (w.handled thread).filterMap (queuedAt target) =
      ((w.handled thread).map Prod.fst).filterMap (handedTo target) := by
  rw [List.filterMap_map]
  refine List.filterMap_congr fun entry hentry => ?_
  obtain ⟨order, fate⟩ := entry
  obtain rfl := h.fates thread order fate hentry
  exact queuedAt_fate target order

/-- **The layers are sequential processes**, in every interleaving of the threads, while all layers that are given
something run. The plugin of a layer is in the state, and has sent what it sends, when it is given what its worker
has run, one operation after the other. A first part `done` of what it has sent has been routed, in this order,
and what this part hands to a layer stands among the tasks of that layer in the same order, but for what the
worker has still to put there. -/
theorem layers_sequential {moves : List Move}
    (hmeets : RunMeets (World.step prost platform react) (fun w move => w.ready move = true) (.new start) moves)
    (hrun : runSteps (World.step prost platform react) (.new start) moves = some w) (id : LayerId) :
    ∃ done numbers,
      runPlugin react id (start id) (operations (w.layers id)) =
        (w.plugins id, done ++ (w.outbox (.worker id)).filterMap Entry.toSent) ∧
      numbers.length = done.length ∧
      ∀ target, (routing prost platform id done numbers).filterMap (handedTo target) =
        fromThread (.worker id) (((Nem.outcomes (w.layers target).log).map Prod.fst) ++
            (w.layers target).inHand ++ (w.layers target).queue) ++
          ((w.outbox (.worker id)).filterMap Entry.toOrder).filterMap (handedTo target) := by
  have hseq : w.Sequential prost platform react start :=
    hmeets.keeps (fun _ _ _ h hready hstep => World.Sequential.step h hready hstep)
      (World.sequential_new start) hrun
  have hkept : w.Kept :=
    runSteps_keeps (fun _ _ _ h hstep => World.Kept.step h hstep) (World.kept_new start) hrun
  obtain ⟨done, numbers, hplugin, hnumbers, hrouted⟩ := hseq.answers id
  refine ⟨done, numbers, hplugin, hnumbers, fun target => ?_⟩
  calc (routing prost platform id done numbers).filterMap (handedTo target)
      = ((w.handled (.worker id)).map Prod.fst ++
          (w.outbox (.worker id)).filterMap Entry.toOrder).filterMap (handedTo target) := by
        rw [← hrouted, hseq.order]
    _ = ((w.handled (.worker id)).map Prod.fst).filterMap (handedTo target) ++
          ((w.outbox (.worker id)).filterMap Entry.toOrder).filterMap (handedTo target) :=
        List.filterMap_append
    _ = fromThread (.worker id) (Nem.acceptedTasks (w.layers target).log) ++
          ((w.outbox (.worker id)).filterMap Entry.toOrder).filterMap (handedTo target) := by
        rw [← hseq.queued, hkept.queued]
    _ = _ := by rw [(hkept.layers target).ledger.order]

end

/-- Both layers are started, and a call comes to the upper one. Its worker runs it and puts what the plugin sends
on the queue of the lower one. -/
def throughQueues : List Move :=
  [.turn (1, 0) .start, .turn (1, 0) .proceed, .turn (1, 1) .start, .turn (1, 1) .proceed,
    .inject 0 (1, 0) (.call true ⟨none, []⟩), .deliver (.outside 0),
    .turn (1, 0) (.signal .downstreamControl), .turn (1, 0) (.wait [.eventFd]), .turn (1, 0) .work,
    .turn (1, 0) .work, .turn (1, 0) .work, .turn (1, 0) .work, .deliver (.worker (1, 0)),
    .deliver (.worker (1, 0))]

theorem layers_sequential_throughQueues :
    ∃ w, runSteps (World.step protobuf twoLayers forward) (.new fun _ => ()) throughQueues = some w ∧
      ((w.layers (1, 1)).queue.map fun task => task.operation) =
        [(.worker (1, 0), .call true ⟨none, []⟩)] ∧
      ∃ done numbers,
        runPlugin forward (1, 0) () (operations (w.layers (1, 0))) =
          (w.plugins (1, 0), done ++ (w.outbox (.worker (1, 0))).filterMap Entry.toSent) ∧
        numbers.length = done.length ∧
        ∀ target, (routing protobuf twoLayers (1, 0) done numbers).filterMap (handedTo target) =
          fromThread (.worker (1, 0)) (((Nem.outcomes (w.layers target).log).map Prod.fst) ++
              (w.layers target).inHand ++ (w.layers target).queue) ++
            ((w.outbox (.worker (1, 0))).filterMap Entry.toOrder).filterMap (handedTo target) :=
  have hmeets : RunMeets (World.step protobuf twoLayers forward) (fun w move => w.ready move = true)
      (.new fun _ => ()) throughQueues := by decide +kernel
  ⟨_, rfl, rfl, layers_sequential hmeets rfl (1, 0)⟩

end Emane.Runtime
