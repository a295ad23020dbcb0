import Mathlib
import Emane.LegacyOta.Prost
import Emane.Lib.Run
import Emane.Runtime.Routing

set_option autoImplicit false

/-! # The layers of a platform at work

Each layer has a queue and a worker. A plugin that is given an operation, by its worker or by another thread,
sends packets and controls, and the thread that runs it routes them and puts the calls on the queues of other
layers one after the other, while all other threads go on. A queue that does not run refuses a call. The thread
then looks whether the layer has not been started yet: if so it runs the operation itself, in the other plugin,
and does what this one sends before it goes on with its own; if not, the call is lost.

`World.step` is one step of one thread. What the plugins do is a parameter. In every run each order that routing
makes of what is handed over has one fate, and those that were put on a queue stand there in their order until
they are run (`deliveries_kept`); what is too large, or goes nowhere, makes no order. Calls are only lost when a layer is stopped, or is started between the two looks
(`no_call_lost`).
-/

namespace Emane.Runtime

open Emane.Lib
open Emane.LegacyOta (Prost protobuf)
open Emane.Nem (QueueTaskKind QueuedTask)

/-! ## Threads and operations -/

/-- The worker of a layer, or a thread that has none: of the program, of a timer, of a socket. -/
inductive Thread
  | worker (id : LayerId)
  | outside (n : ℕ)
  deriving DecidableEq

/-- What a plugin is given: a call, or anything else that its queue takes. -/
inductive Operation
  | call (downstream : Bool) (call : QueuedCall)
  | other (kind : QueueTaskKind) (code : ℕ)
  deriving DecidableEq

def Operation.kind : Operation → QueueTaskKind
  | .call downstream queued => queued.kind downstream
  | .other kind _ => kind

/-- What the framework does for a plugin. -/
inductive Order
  | hand (target : LayerId) (operation : Operation)
  | leave (delivery : Delivery)
  deriving DecidableEq

def Delivery.order : Delivery → Order
  | layer target downstream call => .hand target (.call downstream call)
  | delivery => .leave delivery

/-- What a thread has to do; an order may have been refused by the queue. -/
inductive Entry
  | send (id : LayerId) (sent : Sent)
  | order (order : Order) (refused : Bool)

/-- The orders among what a thread has to do. -/
def Entry.toOrder : Entry → Option Order
  | .send _ _ => none
  | .order next _ => some next

inductive Fate
  | queued
  | direct
  | lost
  | left
  deriving DecidableEq

/-- A layer's queue holds operations with the threads that have handed them over. -/
abbrev Queue := Nem.Layer (Thread × Operation)

variable {σ : Type}

/-- The state of a platform; `routed` and `handled` are there for the proofs. -/
structure World (σ : Type) where
  layers : LayerId → Queue
  plugins : LayerId → σ
  outbox : Thread → List Entry
  sequences : UInt16 → UInt16
  routed : Thread → List Order
  handled : Thread → List (Order × Fate)

/-- A platform before it starts. -/
def World.new (plugins : LayerId → σ) : World σ where
  layers _ := .new
  plugins := plugins
  outbox _ := []
  sequences _ := 0
  routed _ := []
  handled _ := []

/-! ## The steps -/

section

variable (prost : Prost) (platform : Platform) (react : LayerId → σ → Operation → σ × List Sent)

/-- A thread runs an operation in a plugin; it does what this one sends before what it has to do already. -/
def World.perform (w : World σ) (thread : Thread) (id : LayerId) (operation : Operation)
    (rest : List Entry) : World σ :=
  let (plugin, sent) := react id (w.plugins id) operation
  { w with
    plugins := Function.update w.plugins id plugin
    outbox := Function.update w.outbox thread (sent.map (Entry.send id) ++ rest) }

/-- What a plugin sends is routed. -/
def World.dispatch (w : World σ) (thread : Thread) (id : LayerId) (sent : Sent) (rest : List Entry) : World σ :=
  let (deliveries, sequence) := route prost platform id (w.sequences id.1) sent
  let orders := deliveries.map Delivery.order
  { w with
    sequences := Function.update w.sequences id.1 sequence
    outbox := Function.update w.outbox thread (orders.map (Entry.order · false) ++ rest)
    routed := Function.update w.routed thread (w.routed thread ++ orders) }

def World.setLayer (w : World σ) (id : LayerId) (layer : Queue) : World σ :=
  { w with layers := Function.update w.layers id layer }

/-- An order is done. -/
def World.handle (w : World σ) (thread : Thread) (order : Order) (fate : Fate) (rest : List Entry) : World σ :=
  { w with
    outbox := Function.update w.outbox thread rest
    handled := Function.update w.handled thread (w.handled thread ++ [(order, fate)]) }

/-- The next thing that the thread has to do. -/
def World.deliver (w : World σ) (thread : Thread) : Option (World σ) :=
  match w.outbox thread with
  | [] => none
  | .send id sent :: rest => some (w.dispatch prost platform thread id sent rest)
  | .order (.leave delivery) _ :: rest => some (w.handle thread (.leave delivery) .left rest)
  | .order (.hand target operation) false :: rest =>
      let w' := w.setLayer target ((w.layers target).enqueue ⟨(thread, operation), operation.kind⟩)
      if (w.layers target).lifecycle = .running then some (w'.handle thread (.hand target operation) .queued rest)
      else some { w' with outbox := Function.update w.outbox thread (.order (.hand target operation) true :: rest) }
  | .order (.hand target operation) true :: rest =>
      if (w.layers target).lifecycle = .created then
        some ((w.handle thread (.hand target operation) .direct rest).perform react thread target operation rest)
      else some (w.handle thread (.hand target operation) .lost rest)

/-- The operation that the worker runs next. -/
def nextOperation (layer : Queue) : Option Operation :=
  match layer.worker with
  | some (.running _ (task :: _)) => some task.operation.2
  | _ => none

inductive Move
  | turn (id : LayerId) (action : Nem.Action (Thread × Operation))
  | deliver (thread : Thread)
  | enter (n : ℕ) (id : LayerId) (operation : Operation)
  | inject (n : ℕ) (target : LayerId) (operation : Operation)

/-- A worker goes on when it has done what its last operation has sent. -/
def World.work (w : World σ) (id : LayerId) : Option (World σ) :=
  if (w.outbox (.worker id)).isEmpty then
    (w.layers id).work.map fun layer =>
      match nextOperation (w.layers id) with
      | none => w.setLayer id layer
      | some operation => (w.setLayer id layer).perform react (.worker id) id operation []
  else none

def World.step (w : World σ) : Move → Option (World σ)
  | .turn _ (.enqueue _) => none
  | .turn id .work => w.work react id
  | .turn id action => ((w.layers id).step action).map (w.setLayer id)
  | .deliver thread => w.deliver prost platform react thread
  | .enter n id operation =>
      if (w.outbox (.outside n)).isEmpty then some (w.perform react (.outside n) id operation [])
      else none
  | .inject n target operation =>
      if (w.outbox (.outside n)).isEmpty then
        some { w with
          outbox := Function.update w.outbox (.outside n) [.order (.hand target operation) false]
          routed := Function.update w.routed (.outside n) (w.routed (.outside n) ++ [.hand target operation]) }
      else none

end

/-! ## What is kept -/

/-- The operations of a thread among some tasks. -/
def fromThread (thread : Thread) (tasks : List (QueuedTask (Thread × Operation))) : List Operation :=
  (tasks.filter fun task => task.operation.1 = thread).map fun task => task.operation.2

theorem fromThread_append (thread : Thread) (tasks more : List (QueuedTask (Thread × Operation))) :
    fromThread thread (tasks ++ more) = fromThread thread tasks ++ fromThread thread more := by
  rw [fromThread, List.filter_append, List.map_append]
  rfl

theorem fromThread_singleton (thread other : Thread) (operation : Operation) (kind : QueueTaskKind) :
    fromThread thread [⟨(other, operation), kind⟩] = if other = thread then [operation] else [] := by
  rw [fromThread, List.filter_singleton]
  by_cases h : other = thread <;> simp [h]

/-- The operation of an order that was put on the queue of a layer. -/
def queuedAt (id : LayerId) : Order × Fate → Option Operation
  | (.hand target operation, .queued) => if target = id then some operation else none
  | _ => none

/-- Each order has one fate or is still to be done, and the tasks of a queue are the orders that were put on
it, in the order of each thread. -/
structure World.Kept (w : World σ) : Prop where
  layers : ∀ id, (w.layers id).Inv
  orders : ∀ thread, (w.routed thread).Perm
    ((w.handled thread).map Prod.fst ++ (w.outbox thread).filterMap Entry.toOrder)
  queued : ∀ id thread, fromThread thread (Nem.acceptedTasks (w.layers id).log) =
    (w.handled thread).filterMap (queuedAt id)

theorem World.kept_new (plugins : LayerId → σ) : (World.new plugins).Kept where
  layers _ := ⟨.new, .new⟩
  orders _ := .nil
  queued _ _ := rfl

/-- Only the worker and `enqueue` write to the log. -/
theorem log_step {s s' : Queue} {action : Nem.Action (Thread × Operation)} (hstep : s.step action = some s')
    (hwork : action ≠ .work) (henqueue : ∀ task, action ≠ .enqueue task) : s'.log = s.log := by
  cases action with
  | start =>
      simp only [Nem.Layer.step, Option.ite_none_right_eq_some, Option.some.injEq] at hstep
      rw [← hstep.2, Nem.Layer.start]
      split <;> rfl
  | stop =>
      simp only [Nem.Layer.step, Option.ite_none_right_eq_some, Option.some.injEq] at hstep
      rw [← hstep.2]
      rfl
  | proceed =>
      simp only [Nem.Layer.step, Nem.Layer.proceed] at hstep
      grind
  | enqueue task => exact absurd rfl (henqueue task)
  | signal kind =>
      simp only [Nem.Layer.step, Nem.Layer.signal, Option.ite_none_right_eq_some, Option.some.injEq] at hstep
      rw [← hstep.2]
  | wait events =>
      simp only [Nem.Layer.step, Nem.Layer.wait, Option.ite_none_right_eq_some, Option.some.injEq] at hstep
      rw [← hstep.2]
  | work => exact absurd rfl hwork

/-- Only `enqueue` accepts tasks. -/
theorem acceptedTasks_step {s s' : Queue} {action : Nem.Action (Thread × Operation)}
    (hstep : s.step action = some s') (haction : ∀ task, action ≠ .enqueue task) :
    Nem.acceptedTasks s'.log = Nem.acceptedTasks s.log := by
  by_cases hwork : action = .work
  · subst hwork
    cases Nem.work_eq_some_iff.mp hstep <;> rfl
  · rw [log_step hstep hwork haction]

section

variable {prost : Prost} {platform : Platform} {react : LayerId → σ → Operation → σ × List Sent}
  {w w' : World σ} {thread : Thread} {id : LayerId} {operation : Operation} {rest : List Entry}

/-- A step of a layer that accepts nothing. -/
theorem World.Kept.setLayer (h : w.Kept) {layer : Queue} (hinv : layer.Inv)
    (haccepted : Nem.acceptedTasks layer.log = Nem.acceptedTasks (w.layers id).log) :
    (w.setLayer id layer).Kept where
  layers id' := by
    change (Function.update w.layers id layer id').Inv
    by_cases hid : id' = id
    · subst hid
      rwa [Function.update_self]
    · rw [Function.update_of_ne hid]
      exact h.layers id'
  orders := h.orders
  queued id' thread := by
    change fromThread thread (Nem.acceptedTasks (Function.update w.layers id layer id').log) = _
    by_cases hid : id' = id
    · subst hid
      rw [Function.update_self, haccepted]
      exact h.queued id' thread
    · rw [Function.update_of_ne hid]
      exact h.queued id' thread

theorem orders_of_sent (id : LayerId) (sent : List Sent) :
    (sent.map (Entry.send id)).filterMap Entry.toOrder = [] := by
  rw [List.filterMap_map]
  exact List.filterMap_eq_nil_iff.mpr fun _ _ => rfl

theorem orders_of_fresh (orders : List Order) :
    (orders.map (Entry.order · false)).filterMap Entry.toOrder = orders := by
  rw [List.filterMap_map]
  exact List.filterMap_some

/-- What a plugin sends is not routed yet. -/
theorem World.Kept.perform (h : w.Kept)
    (hrest : (w.outbox thread).filterMap Entry.toOrder = rest.filterMap Entry.toOrder) :
    (w.perform react thread id operation rest).Kept where
  layers := h.layers
  orders thread' := by
    dsimp only [World.perform]
    by_cases hthread : thread' = thread
    · subst hthread
      rw [Function.update_self, List.filterMap_append, orders_of_sent, List.nil_append, ← hrest]
      exact h.orders thread'
    · rw [Function.update_of_ne hthread]
      exact h.orders thread'
  queued := h.queued

/-- What is routed is to be done. -/
theorem World.Kept.dispatch (h : w.Kept) {sent : Sent} (hrest : w.outbox thread = .send id sent :: rest) :
    (w.dispatch prost platform thread id sent rest).Kept where
  layers := h.layers
  orders thread' := by
    dsimp only [World.dispatch]
    by_cases hthread : thread' = thread
    · subst hthread
      have horders := h.orders thread'
      rw [hrest, List.filterMap_cons_none rfl] at horders
      rw [Function.update_self, Function.update_self, List.filterMap_append, orders_of_fresh]
      refine (horders.append_right _).trans ?_
      rw [List.append_assoc]
      exact List.perm_append_comm.append_left _
    · rw [Function.update_of_ne hthread, Function.update_of_ne hthread]
      exact h.orders thread'
  queued := h.queued

/-- The order at the front gets its fate. -/
theorem orders_handle (h : w.Kept) {order : Order} {refused : Bool} (fate : Fate)
    (hrest : w.outbox thread = .order order refused :: rest) (thread' : Thread) :
    (w.routed thread').Perm (((w.handle thread order fate rest).handled thread').map Prod.fst ++
      ((w.handle thread order fate rest).outbox thread').filterMap Entry.toOrder) := by
  dsimp only [World.handle]
  by_cases hthread : thread' = thread
  · subst hthread
    have horders := h.orders thread'
    rw [hrest, List.filterMap_cons_some (show Entry.toOrder (.order order refused) = some order from rfl)]
      at horders
    rw [Function.update_self, Function.update_self, List.map_append, List.append_assoc]
    exact horders
  · rw [Function.update_of_ne hthread, Function.update_of_ne hthread]
    exact h.orders thread'

/-- What was put on the queues when the thread has done the order at the front. -/
theorem queued_handle (order : Order) (fate : Fate) (id : LayerId) (thread' : Thread) :
    ((w.handle thread order fate rest).handled thread').filterMap (queuedAt id) =
      (w.handled thread').filterMap (queuedAt id) ++
        if thread' = thread then (queuedAt id (order, fate)).toList else [] := by
  dsimp only [World.handle]
  by_cases hthread : thread' = thread
  · subst hthread
    rw [Function.update_self, if_pos rfl, List.filterMap_append]
    cases hqueued : queuedAt id (order, fate) with
    | none => rw [List.filterMap_cons_none hqueued]; rfl
    | some operation => rw [List.filterMap_cons_some hqueued]; rfl
  · rw [Function.update_of_ne hthread, if_neg hthread, List.append_nil]

/-- The order at the front is done, and no queue has taken it. -/
theorem World.Kept.handle (h : w.Kept) {order : Order} {refused : Bool} {fate : Fate}
    (hrest : w.outbox thread = .order order refused :: rest) (hfate : fate ≠ .queued) :
    (w.handle thread order fate rest).Kept where
  layers := h.layers
  orders := orders_handle h fate hrest
  queued id thread' := by
    have hnone : queuedAt id (order, fate) = none := by
      cases order <;> cases fate <;> first | rfl | exact absurd rfl hfate
    rw [queued_handle, hnone, Option.toList_none, ite_self, List.append_nil]
    exact h.queued id thread'

theorem enqueue_running {layer : Queue} (hrunning : layer.lifecycle = .running)
    (task : QueuedTask (Thread × Operation)) :
    Nem.acceptedTasks (layer.enqueue task).log = Nem.acceptedTasks layer.log ++ [task] := by
  rw [Nem.Layer.enqueue, if_neg (not_not.mpr hrunning)]
  rfl

theorem enqueue_refused {layer : Queue} (hrunning : layer.lifecycle ≠ .running)
    (task : QueuedTask (Thread × Operation)) :
    Nem.acceptedTasks (layer.enqueue task).log = Nem.acceptedTasks layer.log := by
  rw [Nem.Layer.enqueue, if_pos hrunning]
  rfl

theorem inv_enqueue {layer : Queue} (h : layer.Inv) (task : QueuedTask (Thread × Operation)) :
    (layer.enqueue task).Inv := @Nem.Layer.Inv.step _ layer _ (.enqueue task) h rfl

/-- A queue takes the order at the front. -/
theorem World.Kept.put (h : w.Kept) {target : LayerId} {refused : Bool}
    (hrest : w.outbox thread = .order (.hand target operation) refused :: rest)
    (hrunning : (w.layers target).lifecycle = .running) :
    ((w.setLayer target ((w.layers target).enqueue ⟨(thread, operation), operation.kind⟩)).handle thread
      (.hand target operation) .queued rest).Kept where
  layers id := by
    change (Function.update w.layers target _ id).Inv
    by_cases hid : id = target
    · subst hid
      rw [Function.update_self]
      exact inv_enqueue (h.layers id) _
    · rw [Function.update_of_ne hid]
      exact h.layers id
  orders := orders_handle h .queued hrest
  queued id thread' := by
    rw [queued_handle]
    change fromThread thread' (Nem.acceptedTasks (Function.update w.layers target _ id).log) =
      (w.handled thread').filterMap (queuedAt id) ++ _
    rw [← h.queued id thread']
    by_cases hid : id = target
    · subst hid
      have hqueued : queuedAt id (.hand id operation, .queued) = some operation := if_pos rfl
      rw [Function.update_self, enqueue_running hrunning, fromThread_append, fromThread_singleton, hqueued,
        Option.toList_some]
      by_cases hthread : thread' = thread
      · rw [if_pos hthread, if_pos hthread.symm]
      · rw [if_neg hthread, if_neg (Ne.symm hthread)]
    · have hqueued : queuedAt id (.hand target operation, .queued) = none := if_neg (Ne.symm hid)
      rw [Function.update_of_ne hid, hqueued, Option.toList_none, ite_self, List.append_nil]

/-- The queue refuses the order at the front. -/
theorem World.Kept.refuse (h : w.Kept) {target : LayerId}
    (hrest : w.outbox thread = .order (.hand target operation) false :: rest)
    (hrunning : (w.layers target).lifecycle ≠ .running) :
    { w.setLayer target ((w.layers target).enqueue ⟨(thread, operation), operation.kind⟩) with
      outbox := Function.update w.outbox thread (.order (.hand target operation) true :: rest) }.Kept where
  layers := (h.setLayer (inv_enqueue (h.layers target) _) (enqueue_refused hrunning _)).layers
  orders thread' := by
    dsimp only [World.setLayer]
    by_cases hthread : thread' = thread
    · subst hthread
      have horders := h.orders thread'
      rw [hrest] at horders
      rw [Function.update_self]
      exact horders
    · rw [Function.update_of_ne hthread]
      exact h.orders thread'
  queued := (h.setLayer (inv_enqueue (h.layers target) _) (enqueue_refused hrunning _)).queued

/-- A thread that has nothing to do is given a call. -/
theorem World.Kept.inject (h : w.Kept) (hempty : w.outbox thread = []) (order : Order) :
    { w with
      outbox := Function.update w.outbox thread [.order order false]
      routed := Function.update w.routed thread (w.routed thread ++ [order]) }.Kept where
  layers := h.layers
  orders thread' := by
    dsimp only
    by_cases hthread : thread' = thread
    · subst hthread
      have horders := h.orders thread'
      rw [hempty, List.filterMap_nil, List.append_nil] at horders
      rw [Function.update_self, Function.update_self]
      exact horders.append_right [order]
    · rw [Function.update_of_ne hthread, Function.update_of_ne hthread]
      exact h.orders thread'
  queued := h.queued

theorem World.Kept.deliver (h : w.Kept) (hstep : w.deliver prost platform react thread = some w') : w'.Kept := by
  unfold World.deliver at hstep
  split at hstep
  · cases hstep
  · next hrest =>
      cases hstep
      exact h.dispatch hrest
  · next hrest =>
      cases hstep
      exact h.handle hrest (by decide)
  · next hrest =>
      dsimp only at hstep
      split at hstep
      case isTrue hrunning =>
        cases hstep
        exact h.put hrest hrunning
      case isFalse hrunning =>
        cases hstep
        exact h.refuse hrest hrunning
  · next hrest =>
      split at hstep
      case isTrue =>
        cases hstep
        refine (h.handle hrest (by decide)).perform ?_
        dsimp only [World.handle]
        rw [Function.update_self]
      case isFalse =>
        cases hstep
        exact h.handle hrest (by decide)

theorem World.Kept.work (h : w.Kept) (hstep : w.work react id = some w') : w'.Kept := by
  unfold World.work at hstep
  split at hstep
  case isFalse => cases hstep
  case isTrue hempty =>
    obtain ⟨layer, hwork, heq⟩ := Option.map_eq_some_iff.mp hstep
    have hlayer : (w.setLayer id layer).Kept := by
      refine h.setLayer ?_ ?_
      · exact @Nem.Layer.Inv.step _ _ _ .work (h.layers id) hwork
      · exact acceptedTasks_step (show Nem.Layer.step _ .work = _ from hwork) (by simp)
    split at heq
    · rw [← heq]
      exact hlayer
    · rw [← heq]
      refine hlayer.perform ?_
      exact congrArg (List.filterMap Entry.toOrder) (List.isEmpty_iff.mp hempty)

theorem World.Kept.turn (h : w.Kept) {action : Nem.Action (Thread × Operation)}
    (haction : ∀ task, action ≠ .enqueue task)
    (hstep : ((w.layers id).step action).map (w.setLayer id) = some w') : w'.Kept := by
  obtain ⟨layer, hlayer, rfl⟩ := Option.map_eq_some_iff.mp hstep
  exact h.setLayer ((h.layers id).step hlayer) (acceptedTasks_step hlayer haction)

/-- Every step of every thread keeps it. -/
theorem World.Kept.step {move : Move} (h : w.Kept) (hstep : w.step prost platform react move = some w') :
    w'.Kept := by
  cases move with
  | turn id action =>
      cases action with
      | enqueue task => cases hstep
      | work => exact h.work hstep
      | start => exact h.turn (by simp) hstep
      | stop => exact h.turn (by simp) hstep
      | proceed => exact h.turn (by simp) hstep
      | signal kind => exact h.turn (by simp) hstep
      | wait events => exact h.turn (by simp) hstep
  | deliver thread => exact h.deliver hstep
  | enter n id operation =>
      simp only [World.step, Option.ite_none_right_eq_some, Option.some.injEq] at hstep
      obtain ⟨hempty, rfl⟩ := hstep
      exact h.perform (congrArg (List.filterMap Entry.toOrder) (List.isEmpty_iff.mp hempty))
  | inject n target operation =>
      simp only [World.step, Option.ite_none_right_eq_some, Option.some.injEq] at hstep
      obtain ⟨hempty, rfl⟩ := hstep
      exact h.inject (List.isEmpty_iff.mp hempty) _

/-- **What the layers hand over is kept**, in every interleaving of the threads. Each order has exactly one
fate or is still to be done, and what a thread has put on the queue of a layer has been run or dropped, is in
the hand of its worker or on the queue, in the order in which the thread has put it there. -/
theorem deliveries_kept {plugins : LayerId → σ} {moves : List Move}
    (hrun : runSteps (World.step prost platform react) (.new plugins) moves = some w) :
    (∀ thread, (w.routed thread).Perm
      ((w.handled thread).map Prod.fst ++ (w.outbox thread).filterMap Entry.toOrder)) ∧
      ∀ id thread, (w.handled thread).filterMap (queuedAt id) =
        fromThread thread (((Nem.outcomes (w.layers id).log).map Prod.fst) ++
          (w.layers id).inHand ++ (w.layers id).queue) := by
  have hkept : w.Kept :=
    runSteps_keeps (fun _ _ _ h hstep => World.Kept.step h hstep) (World.kept_new plugins) hrun
  refine ⟨hkept.orders, fun id thread => ?_⟩
  rw [← (hkept.layers id).ledger.order]
  exact (hkept.queued id thread).symm

end

/-- A NEM with two layers. -/
def twoLayers : Platform where
  nems := [1]
  height _ := 2
  boundary _ := none
  nodup := by decide

/-- A plugin that sends a control on for each call. -/
def forward (_ : LayerId) (_ : Unit) : Operation → Unit × List Sent
  | .call downstream _ => ((), [.control downstream (.data [])])
  | .other _ _ => ((), [])

/-- A call comes while no layer has been started. The thread that brings it runs it in the upper layer and puts
what this one sends on the queue of the lower layer, which has been started meanwhile. -/
def startup : List Move :=
  [.inject 0 (1, 0) (.call true ⟨none, []⟩), .deliver (.outside 0), .turn (1, 1) .start, .deliver (.outside 0),
    .deliver (.outside 0), .turn (1, 1) .proceed, .deliver (.outside 0),
    .turn (1, 1) (.signal .downstreamControl), .turn (1, 1) (.wait [.eventFd]), .turn (1, 1) .work,
    .turn (1, 1) .work, .turn (1, 1) .work, .turn (1, 1) .work, .deliver (.worker (1, 1))]

theorem deliveries_kept_startup :
    ∃ w, runSteps (World.step protobuf twoLayers forward) (.new fun _ => ()) startup = some w ∧
      (w.handled (.outside 0)).map Prod.snd = [.direct, .queued] ∧
      (w.handled (.outside 0)).filterMap (queuedAt (1, 1)) =
        fromThread (.outside 0) (((Nem.outcomes (w.layers (1, 1)).log).map Prod.fst) ++
          (w.layers (1, 1)).inHand ++ (w.layers (1, 1)).queue) :=
  ⟨_, rfl, rfl,
    (@deliveries_kept _ protobuf twoLayers forward _ (fun _ => ()) startup rfl).2 (1, 1) (.outside 0)⟩

/-! ## When no call is lost -/

/-- No layer is stopped, and a layer is only started when no thread stands between its two looks. -/
def World.Gentle (w : World σ) : Move → Prop
  | .turn _ .stop => False
  | .turn id .start => ∀ thread operation, Entry.order (.hand id operation) true ∉ w.outbox thread
  | _ => True

/-- Whoever was refused by a queue finds that the layer has not been started. -/
structure World.Open (w : World σ) : Prop where
  layers : ∀ id, (w.layers id).lifecycle ≠ .stopped
  refused : ∀ thread target operation, Entry.order (.hand target operation) true ∈ w.outbox thread →
    (w.layers target).lifecycle = .created
  kept : ∀ thread order fate, (order, fate) ∈ w.handled thread → fate ≠ .lost

theorem World.open_new (plugins : LayerId → σ) : (World.new plugins).Open where
  layers _ := by simp [World.new, Nem.Layer.new]
  refused _ _ _ hmem := absurd hmem List.not_mem_nil
  kept _ _ _ hmem := absurd hmem List.not_mem_nil

/-- Only `start` and `stop` move the lifecycle. -/
theorem lifecycle_step {s s' : Queue} {action : Nem.Action (Thread × Operation)}
    (hstep : s.step action = some s') (hstart : action ≠ .start) (hstop : action ≠ .stop) :
    s'.lifecycle = s.lifecycle := by
  cases action with
  | start => exact absurd rfl hstart
  | stop => exact absurd rfl hstop
  | proceed =>
      simp only [Nem.Layer.step, Nem.Layer.proceed] at hstep
      grind
  | enqueue task =>
      cases hstep
      unfold Nem.Layer.enqueue
      split <;> rfl
  | signal kind =>
      simp only [Nem.Layer.step, Nem.Layer.signal, Option.ite_none_right_eq_some, Option.some.injEq] at hstep
      rw [← hstep.2]
  | wait events =>
      simp only [Nem.Layer.step, Nem.Layer.wait, Option.ite_none_right_eq_some, Option.some.injEq] at hstep
      rw [← hstep.2]
  | work => cases Nem.work_eq_some_iff.mp hstep <;> rfl

section

variable {prost : Prost} {platform : Platform} {react : LayerId → σ → Operation → σ × List Sent}
  {w w' : World σ} {thread : Thread} {id : LayerId} {operation : Operation} {rest : List Entry}

theorem lifecycle_setLayer (layer : Queue) (hlifecycle : layer.lifecycle = (w.layers id).lifecycle)
    (other : LayerId) : ((w.setLayer id layer).layers other).lifecycle = (w.layers other).lifecycle := by
  change (Function.update w.layers id layer other).lifecycle = _
  by_cases hother : other = id
  · subst hother
    rw [Function.update_self, hlifecycle]
  · rw [Function.update_of_ne hother]

/-- A thread's list of what it has to do changes, and nothing that a queue has refused comes on it. -/
theorem World.Open.outbox (h : w.Open) (hlayers : ∀ id, (w'.layers id).lifecycle = (w.layers id).lifecycle)
    {entries : List Entry} (houtbox : w'.outbox = Function.update w.outbox thread entries)
    (hentries : ∀ target operation, Entry.order (.hand target operation) true ∈ entries →
      (w.layers target).lifecycle = .created)
    (hkept : ∀ thread order fate, (order, fate) ∈ w'.handled thread → fate ≠ .lost) : w'.Open where
  layers id := by
    rw [hlayers id]
    exact h.layers id
  refused thread' target operation hmem := by
    rw [hlayers target]
    rw [houtbox] at hmem
    by_cases hthread : thread' = thread
    · subst hthread
      rw [Function.update_self] at hmem
      exact hentries target operation hmem
    · rw [Function.update_of_ne hthread] at hmem
      exact h.refused thread' target operation hmem
  kept := hkept

/-- A step of a layer that leaves its lifecycle. -/
theorem World.Open.setLayer (h : w.Open) {layer : Queue}
    (hlifecycle : layer.lifecycle = (w.layers id).lifecycle) : (w.setLayer id layer).Open where
  layers other := by
    rw [lifecycle_setLayer layer hlifecycle]
    exact h.layers other
  refused thread target operation hmem := by
    rw [lifecycle_setLayer layer hlifecycle]
    exact h.refused thread target operation hmem
  kept := h.kept

theorem World.Open.perform (h : w.Open)
    (hrest : ∀ target operation, Entry.order (.hand target operation) true ∈ rest →
      (w.layers target).lifecycle = .created) :
    (w.perform react thread id operation rest).Open := by
  refine h.outbox (fun _ => rfl) rfl ?_ h.kept
  intro target operation hmem
  rcases List.mem_append.mp hmem with hsent | hmem
  · obtain ⟨sent, -, hsent⟩ := List.mem_map.mp hsent
    cases hsent
  · exact hrest target operation hmem

theorem kept_handle (h : w.Open) {order : Order} {fate : Fate} (hfate : fate ≠ .lost) :
    ∀ thread' order' fate', (order', fate') ∈ (w.handle thread order fate rest).handled thread' →
      fate' ≠ .lost := by
  intro thread' order' fate' hmem
  dsimp only [World.handle] at hmem
  by_cases hthread : thread' = thread
  · subst hthread
    rw [Function.update_self] at hmem
    rcases List.mem_append.mp hmem with hmem | hmem
    · exact h.kept thread' order' fate' hmem
    · cases List.mem_singleton.mp hmem
      exact hfate
  · rw [Function.update_of_ne hthread] at hmem
    exact h.kept thread' order' fate' hmem

/-- The order at the front is done, and it is not lost. -/
theorem World.Open.handle (h : w.Open) {order : Order} {refused : Bool} {fate : Fate}
    (hrest : w.outbox thread = .order order refused :: rest) (hfate : fate ≠ .lost) :
    (w.handle thread order fate rest).Open := by
  refine h.outbox (fun _ => rfl) rfl ?_ (kept_handle h hfate)
  intro target operation hmem
  refine h.refused thread target operation ?_
  rw [hrest]
  exact List.mem_cons_of_mem _ hmem

theorem World.Open.dispatch (h : w.Open) {sent : Sent} (hrest : w.outbox thread = .send id sent :: rest) :
    (w.dispatch prost platform thread id sent rest).Open := by
  refine h.outbox (fun _ => rfl) rfl ?_ h.kept
  intro target operation hmem
  rcases List.mem_append.mp hmem with hfresh | hmem
  · obtain ⟨order, -, hfresh⟩ := List.mem_map.mp hfresh
    cases hfresh
  · refine h.refused thread target operation ?_
    rw [hrest]
    exact List.mem_cons_of_mem _ hmem

theorem lifecycle_enqueue (layer : Queue) (task : QueuedTask (Thread × Operation)) :
    (layer.enqueue task).lifecycle = layer.lifecycle :=
  @lifecycle_step layer _ (.enqueue task) rfl (by simp) (by simp)

theorem World.Open.deliver (h : w.Open) (hstep : w.deliver prost platform react thread = some w') : w'.Open := by
  unfold World.deliver at hstep
  split at hstep
  · cases hstep
  · next hrest =>
      cases hstep
      exact h.dispatch hrest
  · next hrest =>
      cases hstep
      exact h.handle hrest (by decide)
  · next target operation rest hrest =>
      have hlayers := h.setLayer (lifecycle_enqueue (w.layers target) ⟨(thread, operation), operation.kind⟩)
      dsimp only at hstep
      split at hstep
      case isTrue =>
        cases hstep
        exact hlayers.handle hrest (by decide)
      case isFalse hrunning =>
        cases hstep
        refine hlayers.outbox (fun _ => rfl) rfl ?_ h.kept
        intro target' operation' hmem
        rcases List.mem_cons.mp hmem with heq | hmem
        · -- the layer does not run, and it has not been stopped
          cases heq
          rw [lifecycle_setLayer _ (lifecycle_enqueue _ _)]
          have hstopped := h.layers target
          cases hlifecycle : (w.layers target).lifecycle with
          | created => rfl
          | running => exact absurd hlifecycle hrunning
          | stopped => exact absurd hlifecycle hstopped
        · refine hlayers.refused thread target' operation' ?_
          change _ ∈ w.outbox thread
          rw [hrest]
          exact List.mem_cons_of_mem _ hmem
  · next target operation rest hrest =>
      have hcreated : (w.layers target).lifecycle = .created := by
        refine h.refused thread target operation ?_
        rw [hrest]
        exact List.mem_cons_self
      rw [if_pos hcreated] at hstep
      cases hstep
      refine (h.handle hrest (by decide)).perform ?_
      intro target' operation' hmem
      refine h.refused thread target' operation' ?_
      rw [hrest]
      exact List.mem_cons_of_mem _ hmem

theorem World.Open.work (h : w.Open) (hstep : w.work react id = some w') : w'.Open := by
  unfold World.work at hstep
  split at hstep
  case isFalse => cases hstep
  case isTrue =>
    obtain ⟨layer, hwork, heq⟩ := Option.map_eq_some_iff.mp hstep
    have hlayer : (w.setLayer id layer).Open :=
      h.setLayer (lifecycle_step (show Nem.Layer.step _ .work = _ from hwork) (by simp) (by simp))
    split at heq
    · rw [← heq]
      exact hlayer
    · rw [← heq]
      exact hlayer.perform fun _ _ hmem => absurd hmem List.not_mem_nil

theorem World.Open.turn (h : w.Open) {action : Nem.Action (Thread × Operation)} (hstart : action ≠ .start)
    (hstop : action ≠ .stop) (hstep : ((w.layers id).step action).map (w.setLayer id) = some w') : w'.Open := by
  obtain ⟨layer, hlayer, rfl⟩ := Option.map_eq_some_iff.mp hstep
  exact h.setLayer (lifecycle_step hlayer hstart hstop)

/-- A layer is started, and no thread has looked at it once. -/
theorem World.Open.start (h : w.Open)
    (hnone : ∀ thread operation, Entry.order (.hand id operation) true ∉ w.outbox thread)
    (hstep : ((w.layers id).step .start).map (w.setLayer id) = some w') : w'.Open := by
  obtain ⟨layer, hlayer, rfl⟩ := Option.map_eq_some_iff.mp hstep
  simp only [Nem.Layer.step, Option.ite_none_right_eq_some, Option.some.injEq] at hlayer
  obtain ⟨-, rfl⟩ := hlayer
  by_cases hworker : (w.layers id).worker.isSome
  · refine h.setLayer ?_
    rw [Nem.Layer.start, if_pos hworker]
  · constructor
    · intro other
      change (Function.update w.layers id _ other).lifecycle ≠ _
      by_cases hother : other = id
      · subst hother
        rw [Function.update_self, Nem.Layer.start, if_neg hworker]
        simp
      · rw [Function.update_of_ne hother]
        exact h.layers other
    · intro thread target operation hmem
      have hother : target ≠ id := by
        rintro rfl
        exact hnone thread operation hmem
      change (Function.update w.layers id _ target).lifecycle = _
      rw [Function.update_of_ne hother]
      exact h.refused thread target operation hmem
    · exact h.kept

theorem World.Open.step {move : Move} (h : w.Open) (hgentle : w.Gentle move)
    (hstep : w.step prost platform react move = some w') : w'.Open := by
  cases move with
  | turn id action =>
      cases action with
      | enqueue task => cases hstep
      | work => exact h.work hstep
      | start => exact h.start hgentle hstep
      | stop => exact hgentle.elim
      | proceed => exact h.turn (by simp) (by simp) hstep
      | signal kind => exact h.turn (by simp) (by simp) hstep
      | wait events => exact h.turn (by simp) (by simp) hstep
  | deliver thread => exact h.deliver hstep
  | enter n id operation =>
      simp only [World.step, Option.ite_none_right_eq_some, Option.some.injEq] at hstep
      obtain ⟨-, rfl⟩ := hstep
      exact h.perform fun _ _ hmem => absurd hmem List.not_mem_nil
  | inject n target operation =>
      simp only [World.step, Option.ite_none_right_eq_some, Option.some.injEq] at hstep
      obtain ⟨-, rfl⟩ := hstep
      refine h.outbox (fun _ => rfl) rfl ?_ h.kept
      intro target operation hmem
      cases List.mem_singleton.mp hmem

/-- **No call is lost** unless a layer is stopped or is started while a thread stands between its two looks:
every call that was handed over was put on the queue, or the thread that handed it over has run it or has still
to go on with it. -/
theorem no_call_lost {plugins : LayerId → σ} {moves : List Move}
    (hmeets : RunMeets (World.step prost platform react) World.Gentle (.new plugins) moves)
    (hrun : runSteps (World.step prost platform react) (.new plugins) moves = some w) (thread : Thread)
    (order : Order) (horder : order ∈ w.routed thread) :
    (∃ fate, (order, fate) ∈ w.handled thread ∧ fate ≠ .lost) ∨
      ∃ refused, Entry.order order refused ∈ w.outbox thread := by
  have hopen : w.Open :=
    hmeets.keeps (fun _ _ _ h hgentle hstep => World.Open.step h hgentle hstep) (World.open_new plugins) hrun
  have hkept : w.Kept :=
    runSteps_keeps (fun _ _ _ h hstep => World.Kept.step h hstep) (World.kept_new plugins) hrun
  have hmem := (hkept.orders thread).mem_iff.mp horder
  rcases List.mem_append.mp hmem with hhandled | houtbox
  · obtain ⟨⟨order', fate⟩, hfate, rfl⟩ := List.mem_map.mp hhandled
    exact .inl ⟨fate, hfate, hopen.kept thread order' fate hfate⟩
  · obtain ⟨entry, houtbox, hentry⟩ := List.mem_filterMap.mp houtbox
    cases entry with
    | send id sent => cases hentry
    | order order' refused =>
        cases hentry
        exact .inr ⟨refused, houtbox⟩

end

theorem meets_cons {step : World σ → Move → Option (World σ)} {cond : World σ → Move → Prop} {w w' : World σ}
    {move : Move} {moves : List Move} (hcond : cond w move) (hstep : step w move = some w')
    (hmeets : RunMeets step cond w' moves) : RunMeets step cond w (move :: moves) := by
  refine ⟨hcond, fun w₂ hstep₂ => ?_⟩
  rw [hstep] at hstep₂
  cases hstep₂
  exact hmeets

/-- The thread stands between its two looks at the upper layer when the lower one is started. -/
theorem no_call_lost_startup :
    ∃ w, runSteps (World.step protobuf twoLayers forward) (.new fun _ => ()) (startup.take 4) = some w ∧
      ((∃ fate, (Order.hand (1, 0) (.call true ⟨none, []⟩), fate) ∈ w.handled (.outside 0) ∧ fate ≠ .lost) ∨
        ∃ refused, Entry.order (.hand (1, 0) (.call true ⟨none, []⟩)) refused ∈ w.outbox (.outside 0)) := by
  have hmeets : RunMeets (World.step protobuf twoLayers forward) World.Gentle (.new fun _ => ())
      (startup.take 4) := by
    refine meets_cons trivial rfl (meets_cons trivial rfl (meets_cons ?_ rfl (meets_cons trivial rfl trivial)))
    intro thread operation hmem
    by_cases hthread : thread = .outside 0
    · subst hthread
      cases List.mem_singleton.mp hmem
    · have hempty : ∀ entry, entry ∉ Function.update (Function.update (fun _ : Thread => ([] : List Entry))
          (.outside 0) [.order (.hand (1, 0) (.call true ⟨none, []⟩)) false])
          (.outside 0) [.order (.hand (1, 0) (.call true ⟨none, []⟩)) true] thread := by
        intro entry
        rw [Function.update_of_ne hthread, Function.update_of_ne hthread]
        exact List.not_mem_nil
      exact hempty _ hmem
  exact ⟨_, rfl, no_call_lost hmeets rfl (.outside 0) _ (List.mem_singleton.mpr rfl)⟩

/-- A layer that is started between the two looks loses the call. -/
example :
    (runSteps (World.step protobuf twoLayers forward) (.new fun _ => ())
      [.inject 0 (1, 0) (.call true ⟨none, []⟩), .deliver (.outside 0), .turn (1, 0) .start,
        .deliver (.outside 0)]).map (fun w => (w.handled (.outside 0)).map Prod.snd) = some [.lost] := by
  decide +kernel

end Emane.Runtime
