import MyServer.ServerEvents
import Mathlib.Algebra.Ring.Nat
import Mathlib.Data.Fintype.Basic

/-!
`queuedApprox_` and the queue. The counter is kept apart from the queue, so it agrees with
it only while every `start` resets it at a moment when zero is its value.
-/

namespace MyServer

namespace CallerPc

def between : CallerPc → Bool
  | .exchangeStopped | .clearStop | .clearQueued | .spawn _ | .checkDepth | .tryPush
  | .countQueued | .countAccepted | .notifyOne | .reject _ => true
  | _ => false

end CallerPc

variable {Thread : Type}

namespace Server

/-- No `start`, `trySubmit` or `tryPopOne` is between its first and its last step. -/
def AtRest (server : Server Thread) : Prop :=
  (∀ thread, (server.callers thread).between = false) ∧
    ∀ id, id < server.spawned → (server.loops id).discounting = none

/-- When `start` resets `queuedApprox_`, as many events are counted as discounted; fewer
than `2 ^ 64 - 1` events are pushed and not discounted when `tryPush` is called. -/
def balanced (trace : List (ServerEvent Thread)) (server : Server Thread) :
    ServerAction Thread → Prop
  | .caller thread _ =>
      (server.callers thread = .clearQueued →
        (countedEvents trace).length = (discountedEvents trace).length) ∧
      (server.callers thread = .tryPush →
        (pushedEvents trace).length + 1 < (discountedEvents trace).length + 2 ^ 64)
  | _ => True

/-- `queuedApprox_` is what was counted less what was discounted, modulo `2 ^ 64`. -/
def Tallied (trace : List (ServerEvent Thread)) (server : Server Thread) : Prop :=
  server.queuedApprox + UInt64.ofNat (discountedEvents trace).length =
    UInt64.ofNat (countedEvents trace).length

structure DepthOk (trace : List (ServerEvent Thread)) (server : Server Thread) : Prop where
  depth : server.Tallied trace
  room : (pushedEvents trace).length < (discountedEvents trace).length + 2 ^ 64

variable {trace events : List (ServerEvent Thread)} {server next : Server Thread}
variable {config : ServerConfig} {thread : Thread} {id : Nat}

namespace Tallied

theorem frame (tallied : server.Tallied trace) (queued : next.queuedApprox = server.queuedApprox)
    (counted : countedEvents events = []) (discounted : discountedEvents events = []) :
    next.Tallied (trace ++ events) := by
  rw [Tallied, countedEvents_append, discountedEvents_append, counted, discounted,
    List.append_nil, List.append_nil, queued]
  exact tallied

theorem discounts (tallied : server.Tallied trace) {event : Submission Thread}
    (queued : next.queuedApprox = server.queuedApprox - 1) :
    next.Tallied (trace ++ [.discounted event]) := by
  have longer : discountedEvents (trace ++ [.discounted event]) =
      discountedEvents trace ++ [event] := discountedEvents_append trace _
  have counted : countedEvents (trace ++ [.discounted event]) = countedEvents trace := by
    rw [countedEvents_append]
    exact List.append_nil _
  rw [Tallied, longer, counted, queued, List.length_append, List.length_singleton,
    UInt64.ofNat_add, UInt64.add_comm _ (UInt64.ofNat 1), ← UInt64.add_assoc]
  exact (congrArg (· + _) (UInt64.sub_add_cancel server.queuedApprox 1)).trans tallied

theorem counts (tallied : server.Tallied trace) {event : Submission Thread}
    (queued : next.queuedApprox = server.queuedApprox + 1) :
    next.Tallied (trace ++ [.counted event]) := by
  have discounted : discountedEvents (trace ++ [.counted event]) = discountedEvents trace := by
    rw [discountedEvents_append]
    exact List.append_nil _
  have longer : countedEvents (trace ++ [.counted event]) = countedEvents trace ++ [event] :=
    countedEvents_append trace _
  rw [Tallied, longer, discounted, queued, List.length_append, List.length_singleton,
    UInt64.ofNat_add, ← tallied, UInt64.add_assoc, UInt64.add_assoc]
  exact congrArg (_ + ·) (UInt64.add_comm _ _)

theorem resets (even : (countedEvents trace).length = (discountedEvents trace).length)
    (queued : next.queuedApprox = 0) : next.Tallied (trace ++ [.depthCleared]) := by
  rw [Tallied, countedEvents_append, discountedEvents_append, queued]
  change 0 + UInt64.ofNat (discountedEvents trace ++ []).length =
    UInt64.ofNat (countedEvents trace ++ []).length
  rw [List.append_nil, List.append_nil, even]
  exact UInt64.zero_add _

variable [DecidableEq Thread]

theorem step (tallied : server.Tallied trace) {action : ServerAction Thread}
    (even : ∀ thread wakes, action = .caller thread wakes → server.callers thread = .clearQueued →
      (countedEvents trace).length = (discountedEvents trace).length)
    (moved : Move config server action next events) : next.Tallied (trace ++ events) := by
  cases moved with
  | call here entry => cases entry <;> exact tallied.frame rfl rfl rfl
  | caller moved =>
      cases moved with
      | clearsQueued here => exact Tallied.resets (even _ _ rfl here) rfl
      | counts here => exact tallied.counts rfl
      | _ => exact tallied.frame rfl rfl rfl
  | worker moved =>
      cases moved with
      | discounts here => exact tallied.discounts rfl
      | _ => exact tallied.frame rfl rfl rfl
  | wake here => exact tallied.frame rfl rfl rfl

end Tallied

/-- The events pushed and not discounted after a step that pushes with room left. -/
theorem room_step [DecidableEq Thread]
    (room : (pushedEvents trace).length < (discountedEvents trace).length + 2 ^ 64)
    {action : ServerAction Thread} (permitted : balanced trace server action)
    (moved : Move config server action next events) :
    (pushedEvents (trace ++ events)).length <
      (discountedEvents (trace ++ events)).length + 2 ^ 64 := by
  rw [pushedEvents_append, discountedEvents_append, List.length_append, List.length_append]
  have small : (pushedEvents trace).length + (pushedEvents events).length <
      (discountedEvents trace).length + 2 ^ 64 := by
    cases moved with
    | call here entry => cases entry <;> exact room
    | caller moved =>
        cases moved with
        | pushes here inside => exact permitted.2 here
        | _ => exact room
    | worker moved => cases moved <;> exact room
    | wake here => exact room
  omega

section Steps

variable [DecidableEq Thread]

theorem DepthOk.step (ok : DepthOk trace server) {action : ServerAction Thread}
    (permitted : balanced trace server action)
    (moved : Move config server action next events) : DepthOk (trace ++ events) next where
  depth := by
    refine ok.depth.step ?_ moved
    rintro thread wakes rfl
    exact permitted.1
  room := room_step ok.room permitted moved

omit [DecidableEq Thread] in
theorem DepthOk.initial : DepthOk [] (Server.initial : Server Thread) where
  depth := rfl
  room := by simp [pushedEvents, discountedEvents]

theorem depth_ok (reached : (serverMachine config Thread).Reaches balanced trace server) :
    DepthOk trace server :=
  reached.invariant DepthOk .initial fun _ _ _ _ _ ok permitted stepped =>
    ok.step permitted (step_move stepped).2

/-- While every reset of the counter is balanced, `queuedApprox_` is the number of events in
`queue_` in every state at rest. -/
theorem depth_at_rest (reached : (serverMachine config Thread).Reaches balanced trace server)
    (rest : server.AtRest) : server.queuedApprox.toNat = server.queue.length := by
  have ok := depth_ok reached
  have events := events_ok (reached.mono fun _ _ _ _ => trivial)
  have counted : (countedEvents trace).length = (pushedEvents trace).length := by
    refine events.events.all_counted fun thread pushing => ?_
    have settled := rest.1 thread
    cases pc : server.callers thread <;>
      simp_all [eventView, CallerPc.stage, CallerPc.between]
  have discounted : (discountedEvents trace).length = (poppedEvents trace).length := by
    refine events.events.all_discounted fun id => ?_
    by_cases spawned : id < server.spawned
    · exact rest.2 id spawned
    · change (server.loops id).discounting = none
      rw [events.absent id (Nat.le_of_not_lt spawned)]
      rfl
  have order : (pushedEvents trace).length =
      (poppedEvents trace).length + server.queue.length :=
    (congrArg List.length events.events.order).trans List.length_append
  have depth := ok.depth
  rw [Tallied, counted, order, discounted, UInt64.ofNat_add, UInt64.add_comm] at depth
  have same : server.queuedApprox = UInt64.ofNat server.queue.length :=
    (UInt64.add_right_inj _).mp depth
  have room := ok.room
  rw [same, UInt64.toNat_ofNat', Nat.mod_eq_of_lt (by omega)]

end Steps

instance [Fintype Thread] (server : Server Thread) : Decidable server.AtRest :=
  inferInstanceAs (Decidable (_ ∧ _))

instance (trace : List (ServerEvent Thread)) (server : Server Thread)
    (action : ServerAction Thread) : Decidable (balanced trace server action) :=
  match action with
  | .caller _ _ => inferInstanceAs (Decidable (_ ∧ _))
  | .start _ | .shutdown _ _ | .wait _ | .trySubmit _ | .worker _ _ | .wake _ => .isTrue trivial

def sampleConfig : ServerConfig where
  workerCount := 1
  enableBackpressure := true
  queueCapacity := 1024
  adapters := 1
  tryPushes := fun _ => true

def leftoverSchedule : List (ServerAction Unit) :=
  [ServerAction.start ()] ++ List.replicate 4 (ServerAction.caller () 0) ++
    [ServerAction.worker 0 true, .trySubmit ()] ++ List.replicate 6 (ServerAction.caller () 0) ++
    [ServerAction.shutdown () .force] ++ List.replicate 5 (ServerAction.caller () 0) ++
    List.replicate 2 (ServerAction.worker 0 true) ++ [ServerAction.wait ()] ++
    List.replicate 5 (ServerAction.caller () 0) ++ [ServerAction.start ()] ++
    List.replicate 5 (ServerAction.caller () 0)

theorem leftoverSchedule_runs :
    ((serverMachine sampleConfig Unit).exec EventMachine.anyAction []
      (serverMachine sampleConfig Unit).start leftoverSchedule).isSome = true := by
  decide +kernel

/-- The counter says zero while the event is still in the queue. -/
theorem depth_wrong_after_restart :
    ¬∀ trace (server : Server Unit),
      (serverMachine sampleConfig Unit).Reaches EventMachine.anyAction trace server →
      server.AtRest → server.queuedApprox.toNat = server.queue.length := by
  intro always
  have equal := always _ _ (EventMachine.reaches_of_isSome leftoverSchedule_runs)
    (by decide +kernel)
  exact absurd equal (by decide +kernel)

def balancedSchedule : List (ServerAction Unit) :=
  [ServerAction.start ()] ++ List.replicate 4 (ServerAction.caller () 0) ++
    [ServerAction.trySubmit ()] ++ List.replicate 6 (ServerAction.caller () 0) ++
    [ServerAction.trySubmit ()] ++ List.replicate 6 (ServerAction.caller () 0) ++
    List.replicate 2 (ServerAction.worker 0 true)

theorem balancedSchedule_runs :
    ((serverMachine sampleConfig Unit).exec balanced []
      (serverMachine sampleConfig Unit).start balancedSchedule).isSome = true := by
  decide +kernel

theorem depth_at_rest_sample :
    (Option.get _ balancedSchedule_runs).2.queuedApprox.toNat =
        (Option.get _ balancedSchedule_runs).2.queue.length ∧
      (Option.get _ balancedSchedule_runs).2.queue = [⟨(), 1⟩] :=
  ⟨depth_at_rest (EventMachine.reaches_of_isSome balancedSchedule_runs) (by decide +kernel),
    by decide +kernel⟩

end Server

end MyServer
