import MyServer.ServerDepth
import MyServer.ServerStart
import MyServer.ThreadCount

/-!
The depth check of `trySubmit`. A rejection is justified while no worker discounts an event
ahead of its submitter's count; an acceptance overshoots by the submitters past the check.
-/

namespace MyServer

namespace CallerPc

def passed : CallerPc → Bool
  | .tryPush => true
  | _ => false

def uncounted : CallerPc → Bool
  | .countQueued => true
  | _ => false

end CallerPc

variable {Thread : Type} [DecidableEq Thread]

def undiscounted (trace : List (ServerEvent Thread)) : List (Submission Thread) :=
  (pushedEvents trace).filter fun event => event ∉ discountedEvents trace

namespace Server

variable {trace events : List (ServerEvent Thread)} {server next : Server Thread}
variable {config : ServerConfig} {thread : Thread} {id : Nat}

/-! A rejection by the depth check. -/

/-- `queuedApprox_` counts events in the queue or popped and not yet discounted, and the
depth check answers `rejected_full` only if there are as many as the capacity. -/
structure DepthJustified (config : ServerConfig) (trace : List (ServerEvent Thread))
    (server : Server Thread) : Prop where
  depth : server.queuedApprox.toNat ≤ (undiscounted trace).length
  rejection : ∀ thread wakes, server.callers thread = .checkDepth →
    (server.step config (.caller thread wakes)).map (fun after => after.1.callers thread) =
      some (.reject .rejectedFull) →
    config.queueCapacity.toNat ≤ (undiscounted trace).length

def discountsPositive (_ : List (ServerEvent Thread)) (server : Server Thread) :
    ServerAction Thread → Prop
  | .worker id _ => (server.loops id).discounting.isSome = true → 0 < server.queuedApprox
  | _ => True

def CountedFirst (trace : List (ServerEvent Thread)) (server : Server Thread) : Prop :=
  (discountedEvents trace).length + server.queuedApprox.toNat ≤ (countedEvents trace).length

omit [DecidableEq Thread] in
theorem CountedFirst.frame (first : server.CountedFirst trace)
    (queued : next.queuedApprox = server.queuedApprox)
    (counted : countedEvents events = []) (discounted : discountedEvents events = []) :
    next.CountedFirst (trace ++ events) := by
  rw [CountedFirst, countedEvents_append, discountedEvents_append, counted, discounted,
    List.append_nil, List.append_nil, queued]
  exact first

omit [DecidableEq Thread] in
theorem CountedFirst.discounts (first : server.CountedFirst trace) {event : Submission Thread}
    (positive : 0 < server.queuedApprox) (queued : next.queuedApprox = server.queuedApprox - 1) :
    next.CountedFirst (trace ++ [.discounted event]) := by
  have longer : discountedEvents (trace ++ [.discounted event]) =
      discountedEvents trace ++ [event] := discountedEvents_append trace _
  have counted : countedEvents (trace ++ [.discounted event]) = countedEvents trace := by
    rw [countedEvents_append]
    exact List.append_nil _
  have some : 0 < server.queuedApprox.toNat := UInt64.lt_iff_toNat_lt.mp positive
  have less : (server.queuedApprox - 1).toNat = server.queuedApprox.toNat - 1 :=
    UInt64.toNat_sub_of_le _ _ (UInt64.le_iff_toNat_le.mpr some)
  have before : (discountedEvents trace).length + server.queuedApprox.toNat ≤
      (countedEvents trace).length := first
  rw [CountedFirst, longer, counted, queued, less, List.length_append, List.length_singleton]
  omega

omit [DecidableEq Thread] in
theorem CountedFirst.counts (first : server.CountedFirst trace) {event : Submission Thread}
    (queued : next.queuedApprox = server.queuedApprox + 1) :
    next.CountedFirst (trace ++ [.counted event]) := by
  have discounted : discountedEvents (trace ++ [.counted event]) = discountedEvents trace := by
    rw [discountedEvents_append]
    exact List.append_nil _
  have longer : countedEvents (trace ++ [.counted event]) = countedEvents trace ++ [event] :=
    countedEvents_append trace _
  have more : (server.queuedApprox + 1).toNat ≤ server.queuedApprox.toNat + 1 := by
    rw [UInt64.toNat_add]
    exact Nat.mod_le _ _
  have before : (discountedEvents trace).length + server.queuedApprox.toNat ≤
      (countedEvents trace).length := first
  rw [CountedFirst, longer, discounted, queued, List.length_append, List.length_singleton]
  omega

omit [DecidableEq Thread] in
theorem CountedFirst.resets (first : server.CountedFirst trace) :
    CountedFirst trace { server with queuedApprox := 0 } :=
  Nat.le_trans (Nat.add_le_add_left (Nat.zero_le _) _) first

theorem CountedFirst.step (first : server.CountedFirst trace) {action : ServerAction Thread}
    (permitted : discountsPositive trace server action)
    (moved : Move config server action next events) : next.CountedFirst (trace ++ events) := by
  cases moved with
  | call here entry => cases entry <;> exact first.frame rfl rfl rfl
  | caller moved =>
      cases moved with
      | clearsQueued here => exact first.resets.frame rfl rfl rfl
      | counts here => exact first.counts rfl
      | _ => exact first.frame rfl rfl rfl
  | worker moved =>
      cases moved with
      | discounts here =>
          exact first.discounts (permitted (by rw [here]; rfl)) rfl
      | _ => exact first.frame rfl rfl rfl
  | wake here => exact first.frame rfl rfl rfl

theorem countedFirst_ok
    (reached : (serverMachine config Thread).Reaches discountsPositive trace server) :
    server.CountedFirst trace :=
  reached.invariant (fun trace server => server.CountedFirst trace) (Nat.le_refl _)
    fun _ _ _ _ _ first permitted stepped => first.step permitted (step_move stepped).2

/-- What is pushed is discounted or still to be discounted. -/
theorem pushed_split (ok : EventsOk trace server) :
    (pushedEvents trace).length ≤ (discountedEvents trace).length + (undiscounted trace).length := by
  have discounted : ((pushedEvents trace).filter fun event =>
      event ∈ discountedEvents trace).length ≤ (discountedEvents trace).length := by
    refine (List.subperm_of_subset (ok.events.nodup.filter _) fun event inside => ?_).length_le
    simpa using (List.mem_filter.mp inside).2
  have split := List.length_eq_length_filter_add (l := pushedEvents trace)
    (fun event => event ∈ discountedEvents trace)
  have rest : ((pushedEvents trace).filter fun event =>
      !decide (event ∈ discountedEvents trace)).length = (undiscounted trace).length := by
    simp [undiscounted]
  omega

/-- An event still to be discounted is in the queue or at a worker that has popped it. -/
theorem undiscounted_place (ok : EventsOk trace server) {event : Submission Thread}
    (inside : event ∈ undiscounted trace) :
    event ∈ server.queue ∨ ∃ id, (server.loops id).discounting = some event := by
  obtain ⟨pushed, left⟩ := List.mem_filter.mp inside
  have left : event ∉ discountedEvents trace := by simpa using left
  have order : pushedEvents trace = poppedEvents trace ++ server.queue := ok.events.order
  rw [order, List.mem_append] at pushed
  rcases pushed with popped | queued
  · refine .inr ?_
    by_contra nowhere
    push Not at nowhere
    exact left ((ok.events.discounted.finished event).mpr ⟨popped, nowhere⟩)
  · exact .inl queued

/-- While no `fetch_sub` finds zero, the depth check rejects only for a full queue. -/
theorem rejection_justified
    (reached : (serverMachine config Thread).Reaches discountsPositive trace server) :
    DepthJustified config trace server ∧ ∀ event ∈ undiscounted trace,
      event ∈ server.queue ∨ ∃ id, (server.loops id).discounting = some event := by
  have ok := events_ok (reached.mono fun _ _ _ _ => trivial)
  have first : (discountedEvents trace).length + server.queuedApprox.toNat ≤
      (countedEvents trace).length := countedFirst_ok reached
  have counted : (countedEvents trace).length ≤ (pushedEvents trace).length :=
    ok.events.counted_le
  have split := pushed_split ok
  have depth : server.queuedApprox.toNat ≤ (undiscounted trace).length := by omega
  refine ⟨⟨depth, ?_⟩, fun _ => undiscounted_place ok⟩
  intro thread wakes here rejected
  obtain ⟨⟨next, events⟩, stepped, answer⟩ := Option.map_eq_some_iff.mp rejected
  obtain ⟨_, moved⟩ := step_move stepped
  have deep : config.queueCapacity ≤ server.queuedApprox := by
    cases moved with
    | call _ entry => cases entry
    | caller moved =>
        cases moved <;> simp_all [Server.goto]
  exact Nat.le_trans (UInt64.le_iff_toNat_le.mp deep) depth

def neverStopped (trace : List (ServerEvent Thread)) (server : Server Thread)
    (action : ServerAction Thread) : Prop :=
  startsOnce trace server action ∧ match action with
    | .shutdown _ _ => False
    | _ => True

instance [Fintype Thread] (trace : List (ServerEvent Thread)) (server : Server Thread)
    (action : ServerAction Thread) : Decidable (neverStopped trace server action) :=
  match action with
  | .start _ | .shutdown _ _ | .wait _ | .trySubmit _ | .caller _ _ | .worker _ _ | .wake _ =>
      inferInstanceAs (Decidable (_ ∧ _))

omit [DecidableEq Thread] in
instance (trace : List (ServerEvent Thread)) (server : Server Thread)
    (action : ServerAction Thread) : Decidable (discountsPositive trace server action) :=
  match action with
  | .worker _ _ => inferInstanceAs (Decidable (_ → _))
  | .start _ | .shutdown _ _ | .wait _ | .trySubmit _ | .caller _ _ | .wake _ => .isTrue trivial

def earlyDiscountSchedule : List (ServerAction Bool) :=
  [ServerAction.start false] ++ List.replicate 4 (ServerAction.caller false 0) ++
    [ServerAction.trySubmit false] ++ List.replicate 3 (ServerAction.caller false 0) ++
    List.replicate 2 (ServerAction.worker 0 true) ++ [ServerAction.trySubmit true, .caller true 0]

theorem earlyDiscountSchedule_runs :
    ((serverMachine sampleConfig Bool).exec neverStopped []
      (serverMachine sampleConfig Bool).start earlyDiscountSchedule).isSome = true := by
  decide +kernel

/-- The counter has wrapped below zero and an empty queue is reported full. -/
theorem rejection_spurious :
    ¬∀ trace (server : Server Bool),
      (serverMachine sampleConfig Bool).Reaches neverStopped trace server →
      DepthJustified sampleConfig trace server := by
  intro always
  have justified := always _ _ (EventMachine.reaches_of_isSome earlyDiscountSchedule_runs)
  exact absurd (justified.rejection true 0 (by decide +kernel) (by decide +kernel))
    (by decide +kernel)

def unitConfig : ServerConfig where
  workerCount := 1
  enableBackpressure := true
  queueCapacity := 1
  adapters := 1
  tryPushes := fun _ => true

def rejectionSchedule : List (ServerAction Bool) :=
  [ServerAction.start false] ++ List.replicate 4 (ServerAction.caller false 0) ++
    [ServerAction.trySubmit false] ++ List.replicate 6 (ServerAction.caller false 0) ++
    [ServerAction.trySubmit true, .caller true 0]

theorem rejectionSchedule_runs :
    ((serverMachine unitConfig Bool).exec discountsPositive []
      (serverMachine unitConfig Bool).start rejectionSchedule).isSome = true := by
  decide +kernel

theorem rejection_justified_sample :
    1 ≤ (undiscounted (Option.get _ rejectionSchedule_runs).1).length :=
  (rejection_justified (EventMachine.reaches_of_isSome rejectionSchedule_runs)).1.rejection true 0
    (by decide +kernel) (by decide +kernel)

/-! The events an accepting depth check lets in. -/

def submittedBy (submitters : Finset Thread) (trace : List (ServerEvent Thread))
    (server : Server Thread) (action : ServerAction Thread) : Prop :=
  startsOnce trace server action ∧ match action with
    | .trySubmit thread => thread ∈ submitters
    | _ => True

structure Bounded (config : ServerConfig) (submitters : Finset Thread)
    (trace : List (ServerEvent Thread)) (server : Server Thread) : Prop where
  tallied : server.Tallied trace
  among : ∀ thread, (server.callers thread).task = .submit → thread ∈ submitters
  bound : (pushedEvents trace).length + countIn submitters CallerPc.passed server.callers ≤
    (discountedEvents trace).length + config.queueCapacity.toNat + (submitters.card - 1)

variable {submitters : Finset Thread}

omit [DecidableEq Thread] in
/-- What is pushed and not counted belongs to a submitter before its count. -/
theorem pushed_le (ok : EventsOk trace server)
    (among : ∀ thread, (server.callers thread).task = .submit → thread ∈ submitters) :
    (pushedEvents trace).length ≤
      (countedEvents trace).length + countIn submitters CallerPc.uncounted server.callers := by
  classical
  have inside : pushedEvents trace ⊆ countedEvents trace ++
      ((submitters.filter fun thread => (server.callers thread).uncounted = true).toList.map
        server.submission) := by
    intro event pushed
    by_cases counted : event ∈ countedEvents trace
    · exact List.mem_append_left _ counted
    · have uncounted : (server.eventView trace).Uncounted event := by
        by_contra settled
        exact counted ((ok.events.counted event).mpr ⟨pushed, settled⟩)
      obtain ⟨call, stage⟩ := uncounted
      have here : server.callers event.thread = .countQueued := by
        have stage : (server.callers event.thread).stage = .pushed := stage
        cases pc : server.callers event.thread <;> simp_all [CallerPc.stage]
      refine List.mem_append_right _ (List.mem_map.mpr ⟨event.thread, ?_, ?_⟩)
      · rw [Finset.mem_toList, Finset.mem_filter, here]
        exact ⟨among _ (by rw [here]; rfl), rfl⟩
      · obtain ⟨owner, number⟩ := event
        exact congrArg (Submission.mk owner) call.symm
  have length := (List.subperm_of_subset ok.events.nodup inside).length_le
  rw [List.length_append, List.length_map, Finset.length_toList] at length
  exact length

namespace Bounded

omit [DecidableEq Thread] in
/-- A check that finds room finds fewer events counted than the capacity allows. -/
theorem counted_lt (bounded : Bounded config submitters trace server)
    (small : config.queueCapacity.toNat + submitters.card ≤ 2 ^ 64)
    (ok : EventsOk trace server) (some : 0 < submitters.card)
    (shallow : server.queuedApprox < config.queueCapacity) :
    (countedEvents trace).length < (discountedEvents trace).length + config.queueCapacity.toNat := by
  rcases Nat.lt_or_ge (countedEvents trace).length (discountedEvents trace).length with less | more
  · omega
  · have counted : (countedEvents trace).length ≤ (pushedEvents trace).length :=
      ok.events.counted_le
    have bound := bounded.bound
    have split : (countedEvents trace).length = (discountedEvents trace).length +
        ((countedEvents trace).length - (discountedEvents trace).length) := by omega
    have tallied := bounded.tallied
    rw [Tallied, split, UInt64.ofNat_add, UInt64.add_comm] at tallied
    have depth := (UInt64.add_right_inj _).mp tallied
    have less := UInt64.lt_iff_toNat_lt.mp shallow
    rw [depth, UInt64.toNat_ofNat', Nat.mod_eq_of_lt (by omega)] at less
    omega

omit [DecidableEq Thread] in
theorem room (bounded : Bounded config submitters trace server)
    (small : config.queueCapacity.toNat + submitters.card ≤ 2 ^ 64) (ok : EventsOk trace server)
    (here : server.callers thread = .checkDepth)
    (shallow : server.queuedApprox < config.queueCapacity) :
    (pushedEvents trace).length + countIn submitters CallerPc.passed server.callers + 1 ≤
      (discountedEvents trace).length + config.queueCapacity.toNat + (submitters.card - 1) := by
  have inside : thread ∈ submitters := bounded.among thread (by rw [here]; rfl)
  have exclusive : ∀ pc : CallerPc, pc.passed = true → pc.uncounted = false := by
    intro pc passed
    cases pc <;> simp_all [CallerPc.passed, CallerPc.uncounted]
  have others := countIn_exclusive inside exclusive
    (show (server.callers thread).passed = false ∧ (server.callers thread).uncounted = false by
      rw [here]; exact ⟨rfl, rfl⟩)
  have pushed := pushed_le ok bounded.among
  have counted := bounded.counted_lt small ok (Finset.card_pos.mpr ⟨thread, inside⟩) shallow
  omega

theorem frame (bounded : Bounded config submitters trace server)
    (tallied : next.Tallied (trace ++ events)) {pc : CallerPc}
    (callers : next.callers = Function.update server.callers thread pc)
    (among : pc.task = .submit → thread ∈ submitters)
    (passed : pc.passed = (server.callers thread).passed) (pushed : pushedEvents events = []) :
    Bounded config submitters (trace ++ events) next where
  tallied := tallied
  among := by
    intro other submitting
    rw [callers] at submitting
    rcases of_update (CallerPc.task · = .submit) submitting with ⟨rfl, now⟩ | before
    · exact among now
    · exact bounded.among other before
  bound := by
    have bound := bounded.bound
    rw [pushedEvents_append, discountedEvents_append, pushed, List.append_nil, List.length_append,
      callers, countIn_same passed]
    omega

omit [DecidableEq Thread] in
theorem still (bounded : Bounded config submitters trace server)
    (tallied : next.Tallied (trace ++ events)) (callers : next.callers = server.callers)
    (pushed : pushedEvents events = []) : Bounded config submitters (trace ++ events) next := by
  refine ⟨tallied, by rw [callers]; exact bounded.among, ?_⟩
  have bound := bounded.bound
  rw [pushedEvents_append, discountedEvents_append, pushed, List.append_nil, List.length_append,
    callers]
  omega

theorem submits (bounded : Bounded config submitters trace server)
    (tallied : next.Tallied (trace ++ events)) {pc : CallerPc}
    (submitting : (server.callers thread).task = .submit)
    (callers : next.callers = Function.update server.callers thread pc)
    (discounted : discountedEvents events = [])
    (change : (pushedEvents trace).length + (pushedEvents events).length +
        countIn submitters CallerPc.passed server.callers + (if pc.passed then 1 else 0) ≤
      (discountedEvents trace).length + config.queueCapacity.toNat + (submitters.card - 1) +
        (if (server.callers thread).passed then 1 else 0)) :
    Bounded config submitters (trace ++ events) next where
  tallied := tallied
  among := by
    intro other now
    rw [callers] at now
    rcases of_update (CallerPc.task · = .submit) now with ⟨rfl, -⟩ | before
    · exact bounded.among other submitting
    · exact bounded.among other before
  bound := by
    have update : countIn submitters CallerPc.passed (Function.update server.callers thread pc) +
        (if (server.callers thread).passed then 1 else 0) =
      countIn submitters CallerPc.passed server.callers + if pc.passed then 1 else 0 :=
        countIn_update (bounded.among thread submitting) pc
    rw [pushedEvents_append, discountedEvents_append, discounted, List.append_nil,
      List.length_append, callers]
    omega

omit [DecidableEq Thread] in
theorem afterState_passed (backpressure : config.enableBackpressure = true)
    (event : Submission Thread) : (server.afterState config event).passed = false := by
  unfold afterState
  split
  · rfl
  · split
    · rfl
    · rfl

theorem caller (bounded : Bounded config submitters trace server)
    (tallied : next.Tallied (trace ++ events)) (ok : EventsOk trace server)
    (backpressure : config.enableBackpressure = true)
    (small : config.queueCapacity.toNat + submitters.card ≤ 2 ^ 64)
    (moved : CallerMove config server thread next events) :
    Bounded config submitters (trace ++ events) next := by
  cases moved with
  | pushes here room =>
      refine bounded.submits tallied (by rw [here]; rfl) rfl rfl ?_
      have bound := bounded.bound
      have one : (pushedEvents [ServerEvent.pushed (server.submission thread)]).length = 1 := rfl
      rw [one, here]
      simp only [CallerPc.passed, Bool.false_eq_true, if_true, if_false]
      omega
  | pushFails here noRoom =>
      refine bounded.submits tallied (by rw [here]; rfl) rfl rfl ?_
      rw [here]
      exact Nat.le_succ_of_le bounded.bound
  | seesRoom here shallow =>
      refine bounded.submits tallied (by rw [here]; rfl) rfl rfl ?_
      have room := bounded.room small ok here (UInt64.not_le.mp shallow)
      simpa [here, CallerPc.passed, pushedEvents] using room
  | checksState here =>
      refine bounded.submits tallied (by rw [here]; rfl) rfl rfl ?_
      have bound := bounded.bound
      rw [afterState_passed backpressure, here]
      exact bound
  | seesFull here | counts here | accepts here =>
      exact bounded.frame tallied rfl (fun _ => bounded.among thread (by rw [here]; rfl))
        (by rw [here]; rfl) rfl
  | notifiesOne here | notifiesNobody here | rejects here =>
      exact bounded.frame tallied rfl (by simp [CallerPc.task]) (by rw [here]; rfl) rfl
  | terminates here unjoined =>
      exact bounded.still tallied rfl rfl
  | created here | notCreated here | restarted here | startRefused here | clearsStop here
  | clearsQueued here | spawns here | spawnsLast here | storesMode here | alreadyStopped here
  | notStopped here | storesStopping here | requestsStop here | notifiesAll here
  | joinedAll here | joins here | joinedBefore here | clearsWorkers here | readsFailed here
  | readsState here | storesStopped here =>
      exact bounded.frame tallied rfl (by simp [CallerPc.task]) (by rw [here]; rfl) rfl

theorem step (bounded : Bounded config submitters trace server) (ok : EventsOk trace server)
    (started : StartOk trace server) (backpressure : config.enableBackpressure = true)
    (small : config.queueCapacity.toNat + submitters.card ≤ 2 ^ 64)
    {action : ServerAction Thread} (permitted : submittedBy submitters trace server action)
    (moved : Move config server action next events) :
    Bounded config submitters (trace ++ events) next := by
  have tallied : next.Tallied (trace ++ events) := by
    refine bounded.tallied.step ?_ moved
    intro thread wakes _ here
    exact started.even ok (by rw [here]; rfl)
  cases moved with
  | call here entry =>
      cases entry with
      | trySubmit =>
          exact bounded.frame tallied rfl (fun _ => permitted.2) (by rw [here]; rfl) rfl
      | start | shutdown | wait =>
          exact bounded.frame tallied rfl (by simp [CallerPc.task]) (by rw [here]; rfl) rfl
  | caller moved => exact bounded.caller tallied ok backpressure small moved
  | worker moved => exact bounded.still tallied (by cases moved <;> rfl) (by cases moved <;> rfl)
  | wake here => exact bounded.still tallied rfl rfl

omit [DecidableEq Thread] in
theorem initial : Bounded config submitters [] (Server.initial : Server Thread) where
  tallied := rfl
  among := nofun
  bound := by
    have none : countIn submitters CallerPc.passed (Server.initial : Server Thread).callers = 0 :=
      Finset.card_eq_zero.mpr (Finset.filter_eq_empty_iff.mpr fun _ _ => Bool.false_ne_true)
    rw [none]
    exact Nat.zero_le _

end Bounded

theorem bounded_ok (backpressure : config.enableBackpressure = true)
    (small : config.queueCapacity.toNat + submitters.card ≤ 2 ^ 64)
    (reached : (serverMachine config Thread).Reaches (submittedBy submitters) trace server) :
    EventsOk trace server ∧ StartOk trace server ∧
      Bounded config submitters trace server := by
  refine reached.invariant (fun trace server => EventsOk trace server ∧ StartOk trace server ∧
    Bounded config submitters trace server) ⟨.initial, .initial, .initial⟩ ?_
  rintro _ _ _ _ _ ⟨ok, started, bounded⟩ permitted stepped
  have moved := (step_move stepped).2
  exact ⟨ok.step moved, started.step ok permitted.1 moved,
    bounded.step ok started backpressure small permitted moved⟩

/-- The submitters past their check may exceed the capacity by all of them but one, as long
as the counter has room for that many events; a single submitter never exceeds it. -/
theorem queue_overshoot (backpressure : config.enableBackpressure = true)
    (reached : (serverMachine config Thread).Reaches (submittedBy submitters) trace server) :
    (config.queueCapacity.toNat + submitters.card ≤ 2 ^ 64 →
        server.queue.length ≤ config.queueCapacity.toNat + (submitters.card - 1)) ∧
      (submitters.card ≤ 1 → server.queue.length ≤ config.queueCapacity.toNat) := by
  have bound : config.queueCapacity.toNat + submitters.card ≤ 2 ^ 64 →
      server.queue.length ≤ config.queueCapacity.toNat + (submitters.card - 1) := by
    intro small
    obtain ⟨ok, _, bounded⟩ := bounded_ok backpressure small reached
    have bound := bounded.bound
    have discounted : (discountedEvents trace).length ≤ (poppedEvents trace).length :=
      ok.events.discounted_le
    have order : pushedEvents trace = poppedEvents trace ++ server.queue := ok.events.order
    have lengths := congrArg List.length order
    rw [List.length_append] at lengths
    omega
  refine ⟨bound, fun single => ?_⟩
  have capacity := config.queueCapacity.toNat_lt
  have below := bound (by omega)
  omega

/-! Two submitters, the largest capacity and a counter that wraps. -/

def largestConfig : ServerConfig where
  workerCount := 1
  enableBackpressure := true
  queueCapacity := 18446744073709551615
  adapters := 1
  tryPushes := fun _ => true

def Started (server : Server Bool) : Prop :=
  ∃ trace, (serverMachine largestConfig Bool).Reaches (submittedBy Finset.univ) trace server ∧
    trace.any ServerEvent.isStartReturned = true

theorem Started.calls {server next : Server Bool} (thread : Bool) (started : Started server)
    (stepped : (server.step largestConfig (.trySubmit thread)).map Prod.fst = some next) :
    Started next := by
  obtain ⟨trace, reached, returned⟩ := started
  obtain ⟨⟨_, events⟩, reaching, rfl⟩ := Option.map_eq_some_iff.mp stepped
  have permitted : submittedBy Finset.univ ([] ++ trace) server (.trySubmit thread) :=
    ⟨returned, Finset.mem_univ _⟩
  exact ⟨trace ++ events, reached.snoc permitted reaching, by simp [returned]⟩

theorem Started.goes {server next : Server Bool} (thread : Bool) (started : Started server)
    (stepped : (server.step largestConfig (.caller thread 0)).map Prod.fst = some next) :
    Started next := by
  obtain ⟨trace, reached, returned⟩ := started
  obtain ⟨⟨_, events⟩, reaching, rfl⟩ := Option.map_eq_some_iff.mp stepped
  have permitted : submittedBy Finset.univ ([] ++ trace) server (.caller thread 0) :=
    ⟨trivial, trivial⟩
  exact ⟨trace ++ events, reached.snoc permitted reaching, by simp [returned]⟩

theorem notifies_nobody {server : Server Bool} {thread : Bool} (awake : server.anyBlocked = false)
    (alive : server.terminated = false) (here : server.callers thread = .notifyOne) :
    (server.step largestConfig (.caller thread 0)).map Prod.fst = some (server.submitted thread) := by
  simp [step, callerStep, alive, here, awake]

/-- The server runs, `length` events are queued and the counter agrees modulo `2 ^ 64`. -/
structure Filled (length : Nat) (callers : Bool → CallerPc) (server : Server Bool) : Prop where
  started : Started server
  running : server.state = .running
  alive : server.terminated = false
  depth : server.queuedApprox = UInt64.ofNat length
  filled : server.queue.length = length
  awake : server.anyBlocked = false
  callers : server.callers = callers

theorem Filled.enters {length : Nat} {callers : Bool → CallerPc} {server : Server Bool}
    (filled : Filled length callers server) (thread : Bool) (idle : callers thread = .idle)
    (shallow : UInt64.ofNat length < largestConfig.queueCapacity) :
    Filled length (Function.update callers thread .tryPush)
      (((server.goto thread .checkRunning).goto thread .checkDepth).goto thread .tryPush) := by
  have here : server.callers thread = .idle := by rw [filled.callers, idle]
  have deep : ¬largestConfig.queueCapacity ≤ server.queuedApprox := by
    rw [filled.depth]
    exact UInt64.not_le.mpr shallow
  have called : Started (server.goto thread .checkRunning) :=
    filled.started.calls thread (by simp [step, call, filled.alive, here])
  have checked : Started ((server.goto thread .checkRunning).goto thread .checkDepth) :=
    called.goes thread (by
      simp [step, callerStep, goto, filled.alive, afterState, filled.running, validateEvent,
        largestConfig])
  constructor
  case started =>
    exact checked.goes thread (by simp [step, callerStep, goto, filled.alive, deep])
  case running => exact filled.running
  case alive => exact filled.alive
  case depth => exact filled.depth
  case filled => exact filled.filled
  case awake => exact filled.awake
  case callers => simp [goto, filled.callers]

theorem Filled.leaves {length : Nat} {callers : Bool → CallerPc} {server : Server Bool}
    (filled : Filled length callers server) (thread : Bool) (passed : callers thread = .tryPush) :
    ∃ next, Filled (length + 1) (Function.update callers thread .idle) next := by
  have here : server.callers thread = .tryPush := by rw [filled.callers, passed]
  have pushed : Started ({ server with
      queue := server.queue ++ [server.submission thread] }.goto thread .countQueued) :=
    filled.started.goes thread (by simp [step, callerStep, filled.alive, here, largestConfig])
  have counted : Started { server with
      queue := server.queue ++ [server.submission thread]
      queuedApprox := server.queuedApprox + 1
      callers := Function.update server.callers thread .countAccepted } :=
    pushed.goes thread (by simp [step, callerStep, goto, filled.alive])
  have accepted : Started { server with
      queue := server.queue ++ [server.submission thread]
      queuedApprox := server.queuedApprox + 1
      metrics := server.metrics.onAccepted
      callers := Function.update server.callers thread .notifyOne } :=
    counted.goes thread (by simp [step, callerStep, goto, filled.alive])
  have awake : anyBlocked { server with
      queue := server.queue ++ [server.submission thread]
      queuedApprox := server.queuedApprox + 1
      metrics := server.metrics.onAccepted
      callers := Function.update server.callers thread .notifyOne } = false := filled.awake
  have returned : Started { server with
      queue := server.queue ++ [server.submission thread]
      queuedApprox := server.queuedApprox + 1
      metrics := server.metrics.onAccepted
      callers := Function.update server.callers thread .idle
      submits := Function.update server.submits thread (server.submits thread + 1) } :=
    accepted.goes thread 
      ((notifies_nobody awake filled.alive (Function.update_self ..)).trans (by simp [submitted]))
  refine ⟨_, returned, filled.running, filled.alive, ?_, ?_, filled.awake, ?_⟩
  · rw [UInt64.ofNat_add]
    exact congrArg (· + 1) filled.depth
  · rw [List.length_append, filled.filled, List.length_singleton]
  · rw [filled.callers]

/-- One submitter alone fills the queue up to the capacity. -/
theorem filled_alone {server : Server Bool} (filled : Filled 0 (fun _ => .idle) server)
    (length : Nat) (bound : length ≤ largestConfig.queueCapacity.toNat) :
    ∃ server, Filled length (fun _ => .idle) server := by
  induction length with
  | zero => exact ⟨server, filled⟩
  | succ length ih =>
      obtain ⟨before, filled⟩ := ih (by omega)
      have shallow : UInt64.ofNat length < largestConfig.queueCapacity := by
        have capacity := largestConfig.queueCapacity.toNat_lt
        rw [UInt64.lt_iff_toNat_lt, UInt64.toNat_ofNat', Nat.mod_eq_of_lt (by omega)]
        omega
      obtain ⟨after, more⟩ := (filled.enters false rfl shallow).leaves false (Function.update_self ..)
      refine ⟨after, ?_⟩
      simpa using more

def startSchedule : List (ServerAction Bool) :=
  [ServerAction.start false] ++ List.replicate 4 (ServerAction.caller false 0)

instance [Fintype Thread] (submitters : Finset Thread) (trace : List (ServerEvent Thread))
    (server : Server Thread) (action : ServerAction Thread) :
    Decidable (submittedBy submitters trace server action) :=
  match action with
  | .start _ | .shutdown _ _ | .wait _ | .trySubmit _ | .caller _ _ | .worker _ _ | .wake _ =>
      inferInstanceAs (Decidable (_ ∧ _))

theorem startSchedule_runs :
    ((serverMachine largestConfig Bool).exec (submittedBy Finset.univ) []
      (serverMachine largestConfig Bool).start startSchedule).isSome = true := by
  decide +kernel

theorem filled_initially : Filled 0 (fun _ => .idle) (Option.get _ startSchedule_runs).2 where
  started := ⟨_, EventMachine.reaches_of_isSome startSchedule_runs, by decide +kernel⟩
  running := by decide +kernel
  alive := by decide +kernel
  depth := by decide +kernel
  filled := by decide +kernel
  awake := by decide +kernel
  callers := by
    funext thread
    revert thread
    decide +kernel

/-- With `2 ^ 64` events in the queue the counter reads zero and the check passes again. -/
theorem queue_overshoots_when_wrapped :
    ¬∀ (config : ServerConfig) (submitters : Finset Bool) trace (server : Server Bool),
      config.enableBackpressure = true →
      (serverMachine config Bool).Reaches (submittedBy submitters) trace server →
      server.queue.length ≤ config.queueCapacity.toNat + (submitters.card - 1) := by
  intro always
  obtain ⟨_, almost⟩ := filled_alone filled_initially (2 ^ 64 - 2) (by decide)
  have bothPassed := (almost.enters false rfl (by decide)).enters true rfl (by decide)
  obtain ⟨_, firstPushed⟩ := bothPassed.leaves false rfl
  obtain ⟨_, wrapped⟩ := firstPushed.leaves true rfl
  obtain ⟨server, exceeded⟩ := (wrapped.enters false rfl (by decide)).leaves false rfl
  obtain ⟨trace, reached, _⟩ := exceeded.started
  have bound := always largestConfig Finset.univ trace server rfl reached
  rw [exceeded.filled] at bound
  exact absurd bound (by decide)

def overshootSchedule : List (ServerAction Bool) :=
  [ServerAction.start false] ++ List.replicate 4 (ServerAction.caller false 0) ++
    [ServerAction.trySubmit false, .trySubmit true] ++
    List.replicate 3 (ServerAction.caller false 0) ++
    List.replicate 3 (ServerAction.caller true 0)

theorem overshootSchedule_runs :
    ((serverMachine unitConfig Bool).exec (submittedBy Finset.univ) []
      (serverMachine unitConfig Bool).start overshootSchedule).isSome = true := by
  decide +kernel

theorem queue_overshoot_sample :
    (Option.get _ overshootSchedule_runs).2.queue.length ≤ 2 ∧
      (Option.get _ overshootSchedule_runs).2.queue = [⟨false, 0⟩, ⟨true, 0⟩] :=
  ⟨(queue_overshoot rfl (EventMachine.reaches_of_isSome overshootSchedule_runs)).1 (by decide),
    by decide +kernel⟩

end Server

end MyServer
