import MyServer.ServerMetrics
import MyServer.ServerStart

/-!
What a graceful shutdown leaves behind. A worker exits when it has found the queue empty
and then reads zero from `queuedApprox_`; in between events can be pushed, and the counter
does not count those of submitters that have pushed and not yet counted.
-/

namespace MyServer

variable {Thread : Type}

namespace ServerEvent

def isShutdownCalled : ServerEvent Thread → Bool
  | .shutdownCalled _ _ => true
  | _ => false

end ServerEvent

def LoopPc.stopping : LoopPc Thread → Bool
  | .testMode | .testQueued | .finished => true
  | _ => false

def beforeShutdown (trace : List (ServerEvent Thread)) : List (ServerEvent Thread) :=
  trace.takeWhile fun event => !event.isShutdownCalled

namespace Server

def gracefulRun (trace : List (ServerEvent Thread)) (server : Server Thread)
    (action : ServerAction Thread) : Prop :=
  startsOnce trace server action ∧
    match action with
    | .shutdown _ mode => mode = .graceful
    | _ => True

variable [DecidableEq Thread]

/-- When the exit test of a worker reads zero with events in the queue, every event that is
discounted has been counted; fewer than `2 ^ 64 - 1` events are pushed and not discounted
when `tryPush` is called. -/
def countedAtExit (trace : List (ServerEvent Thread)) (server : Server Thread) :
    ServerAction Thread → Prop
  | .worker id _ => server.loops id = .testQueued → server.queuedApprox = 0 → server.queue ≠ [] →
      ∀ thread, server.callers thread = .countQueued →
        server.submission thread ∉ discountedEvents trace
  | .caller thread _ => server.callers thread = .tryPush →
      (pushedEvents trace).length + 1 < (discountedEvents trace).length + 2 ^ 64
  | _ => True

def drainedRun (trace : List (ServerEvent Thread)) (server : Server Thread)
    (action : ServerAction Thread) : Prop :=
  gracefulRun trace server action ∧ countedAtExit trace server action

variable {trace events : List (ServerEvent Thread)} {server next : Server Thread}
variable {config : ServerConfig} {thread : Thread} {id : Nat}

omit [DecidableEq Thread] in
theorem beforeShutdown_append (called : trace.any ServerEvent.isShutdownCalled = true) :
    beforeShutdown (trace ++ events) = beforeShutdown trace := by
  unfold beforeShutdown
  rw [List.takeWhile_append, if_neg]
  intro whole
  obtain ⟨event, inside, calls⟩ := List.any_eq_true.mp called
  have all := List.takeWhile_eq_self_iff.mp ((List.takeWhile_prefix _).eq_of_length whole)
  simpa [calls] using all event inside

/-! An accepted event has been counted. -/

omit [DecidableEq Thread] in
theorem counted_of_stage (ok : EventsOk trace server)
    (stage : (server.callers thread).stage = .counted) :
    server.submission thread ∈ countedEvents trace := by
  have inside : server.submission thread ∈ pushedEvents trace :=
    ok.events.current thread (by simp [eventView, stage])
  refine (ok.events.counted _).mpr ⟨inside, fun uncounted => ?_⟩
  have pushed : (server.callers thread).stage = .pushed := uncounted.2
  simp [stage] at pushed

def AcceptedCounted (trace : List (ServerEvent Thread)) : Prop :=
  ∀ event, .submitReturned event .accepted ∈ trace → event ∈ countedEvents trace

omit [DecidableEq Thread] in
theorem AcceptedCounted.quiet (ok : AcceptedCounted trace)
    (quiet : ∀ event, .submitReturned event .accepted ∉ events) :
    AcceptedCounted (trace ++ events) := by
  intro event inside
  rw [countedEvents_append]
  rcases List.mem_append.mp inside with before | now
  · exact List.mem_append_left _ (ok event before)
  · exact absurd now (quiet event)

omit [DecidableEq Thread] in
theorem AcceptedCounted.returns (ok : AcceptedCounted trace)
    (counted : server.submission thread ∈ countedEvents trace) :
    AcceptedCounted (trace ++ [.submitReturned (server.submission thread) .accepted]) := by
  intro event inside
  rw [countedEvents_append]
  refine List.mem_append_left _ ?_
  rcases List.mem_append.mp inside with before | now
  · exact ok event before
  · obtain rfl : event = server.submission thread := by simpa using now
    exact counted

theorem AcceptedCounted.step (ok : AcceptedCounted trace) (eventsOk : EventsOk trace server)
    (counters : CountersOk trace server) {action : ServerAction Thread}
    (moved : Move config server action next events) : AcceptedCounted (trace ++ events) := by
  cases moved with
  | call here entry => cases entry <;> exact ok.quiet (by simp)
  | caller moved =>
      cases moved with
      | notifiesOne here picked | notifiesNobody here nobody =>
          exact ok.returns (counted_of_stage eventsOk (by rw [here]; rfl))
      | rejects here =>
          have notAccepted := (counters.rejecting _ _ here).2
          exact ok.quiet (by simp [notAccepted.symm])
      | _ => exact ok.quiet (by simp)
  | worker moved => cases moved <;> exact ok.quiet (by simp)
  | wake here => exact ok.quiet (by simp)

/-! The exit of a worker. -/

structure DrainOk (trace : List (ServerEvent Thread)) (server : Server Thread) : Prop where
  graceful : server.shutdownMode = .graceful ∧
    ∀ thread mode, server.callers thread = .storeMode mode → mode = .graceful
  /-- Before the first `shutdown` no worker goes past the stop flag. -/
  quiet : trace.any ServerEvent.isShutdownCalled = false → server.stopRequested = false ∧
    (∀ thread, (server.callers thread).task ≠ .shutdown) ∧
    ∀ id, (server.loops id).stopping = false
  /-- Once a worker has exited, what was accepted before the shutdown is popped. -/
  drained : (∃ id, server.loops id = .finished) →
    ∀ event, .submitReturned event .accepted ∈ beforeShutdown trace → event ∈ poppedEvents trace

omit [DecidableEq Thread] in
/-- Every counted event is popped when a worker leaves. -/
theorem counted_popped (ok : EventsOk trace server) (depth : DepthOk trace server)
    (zero : server.queuedApprox = 0)
    (sound : server.queue ≠ [] → ∀ thread, server.callers thread = .countQueued →
      server.submission thread ∉ discountedEvents trace) {event : Submission Thread}
    (counted : event ∈ countedEvents trace) : event ∈ poppedEvents trace := by
  have order : pushedEvents trace = poppedEvents trace ++ server.queue := ok.events.order
  have pushed : event ∈ pushedEvents trace := ((ok.events.counted event).mp counted).1
  by_cases empty : server.queue = []
  · rwa [order, empty, List.append_nil] at pushed
  · have popped : ∀ other ∈ discountedEvents trace, other ∈ poppedEvents trace := fun other inside =>
      ((ok.events.discounted.finished other).mp inside).1
    -- no discounted event is still uncounted, so the counter has not lost any
    have covered : discountedEvents trace ⊆ countedEvents trace := by
      intro other inside
      refine (ok.events.counted other).mpr ⟨ok.events.popped_pushed (popped other inside), ?_⟩
      rintro ⟨own, stage⟩
      have here : server.callers other.thread = .countQueued := by
        have pushing : (server.callers other.thread).stage = .pushed := stage
        cases pc : server.callers other.thread <;> simp [pc, CallerPc.stage] at pushing ⊢
      apply sound empty other.thread here
      have same : server.submission other.thread = other := by
        cases other
        simp only [submission, Submission.mk.injEq, true_and]
        exact own.symm
      rwa [same]
    have few : (countedEvents trace).length ≤ (pushedEvents trace).length := ok.events.counted_le
    have most : (discountedEvents trace).length ≤ (countedEvents trace).length :=
      (List.subperm_of_subset ok.events.discounted.nodup covered).length_le
    have tally : UInt64.ofNat (discountedEvents trace).length =
        UInt64.ofNat (countedEvents trace).length := by
      have depth := depth.depth
      rwa [Tallied, zero, UInt64.zero_add] at depth
    have room := depth.room
    have equal : (discountedEvents trace).length = (countedEvents trace).length := by
      have values := congrArg UInt64.toNat tally
      simp only [UInt64.toNat_ofNat'] at values
      omega
    have all := (List.subperm_of_subset ok.events.discounted.nodup covered).perm_of_length_le
      (Nat.le_of_eq equal.symm)
    exact popped event (all.mem_iff.mpr counted)

omit [DecidableEq Thread] in
theorem DrainOk.called (ok : DrainOk trace server) (past : (server.loops id).stopping = true) :
    trace.any ServerEvent.isShutdownCalled = true := by
  by_contra never
  have quiet := (ok.quiet (Bool.not_eq_true _ ▸ never)).2.2 id
  simp [past] at quiet

omit [DecidableEq Thread] in
theorem DrainOk.drained_after (ok : DrainOk trace server) (left : server.loops id = .finished)
    {event : Submission Thread}
    (accepted : .submitReturned event .accepted ∈ beforeShutdown (trace ++ events)) :
    event ∈ poppedEvents (trace ++ events) := by
  have past : (server.loops id).stopping = true := by rw [left]; rfl
  rw [beforeShutdown_append (ok.called past)] at accepted
  rw [poppedEvents_append]
  exact List.mem_append_left _ (ok.drained ⟨id, left⟩ event accepted)

omit [DecidableEq Thread] in
theorem DrainOk.loop (ok : DrainOk trace server) {pc : LoopPc Thread}
    (loops : next.loops = Function.update server.loops id pc)
    (callers : next.callers = server.callers) (mode : next.shutdownMode = server.shutdownMode)
    (stop : next.stopRequested = server.stopRequested)
    (past : pc.stopping = true → trace.any ServerEvent.isShutdownCalled = true)
    (leaves : pc = .finished → ∀ event, .submitReturned event .accepted ∈
      beforeShutdown (trace ++ events) → event ∈ poppedEvents (trace ++ events))
    (silent : events.any ServerEvent.isShutdownCalled = false) :
    DrainOk (trace ++ events) next := by
  constructor
  case graceful =>
    rw [mode, callers]
    exact ok.graceful
  case quiet =>
    intro never
    rw [List.any_append, silent, Bool.or_false] at never
    obtain ⟨noStop, outside, before⟩ := ok.quiet never
    refine ⟨stop ▸ noStop, callers ▸ outside, fun other => ?_⟩
    rw [loops, ← Bool.not_eq_true]
    intro stops
    rcases of_update (LoopPc.stopping · = true) stops with ⟨-, now⟩ | earlier
    · rw [past now] at never
      cases never
    · rw [before other] at earlier
      cases earlier
  case drained =>
    rintro ⟨other, left⟩ event accepted
    rw [loops] at left
    rcases of_update (· = LoopPc.finished) left with ⟨-, now⟩ | before
    · exact leaves now event accepted
    · exact ok.drained_after before accepted

theorem DrainOk.goto (ok : DrainOk trace server) {pc : CallerPc}
    (callers : next.callers = Function.update server.callers thread pc)
    (mode : next.shutdownMode = .graceful) (notStoring : ∀ mode, pc ≠ .storeMode mode)
    (task : pc.task = .shutdown → (server.callers thread).task = .shutdown)
    (stop : next.stopRequested = true →
      server.stopRequested = true ∨ (server.callers thread).task = .shutdown)
    (past : ∀ id, (next.loops id).stopping = true → (server.loops id).stopping = true)
    (left : ∀ id, next.loops id = .finished → server.loops id = .finished)
    (silent : events.any ServerEvent.isShutdownCalled = false) :
    DrainOk (trace ++ events) next := by
  constructor
  case graceful =>
    refine ⟨mode, fun other mode' storing => ?_⟩
    rw [callers] at storing
    exact ok.graceful.2 other mode'
      (before_update (· = CallerPc.storeMode mode') (notStoring mode') storing)
  case quiet =>
    intro never
    rw [List.any_append, silent, Bool.or_false] at never
    obtain ⟨noStop, outside, before⟩ := ok.quiet never
    refine ⟨?_, fun other => ?_, fun id => ?_⟩
    · rw [← Bool.not_eq_true]
      intro stops
      rcases stop stops with was | shuts
      · simp [noStop] at was
      · exact outside thread shuts
    · rw [callers]
      intro shuts
      rcases of_update (CallerPc.task · = .shutdown) shuts with ⟨rfl, now⟩ | before
      · exact outside other (task now)
      · exact outside other before
    · rw [← Bool.not_eq_true]
      intro stops
      have was := past id stops
      simp [before id] at was
  case drained =>
    rintro ⟨id, finished⟩ event accepted
    exact ok.drained_after (left id finished) accepted

theorem DrainOk.calls (ok : DrainOk trace server) {action : ServerAction Thread} {pc : CallerPc}
    {event : ServerEvent Thread} (permitted : gracefulRun trace server action)
    (entry : Entry server thread action pc event) :
    DrainOk (trace ++ [event]) (server.goto thread pc) := by
  cases entry with
  | shutdown =>
      constructor
      case graceful =>
        refine ⟨ok.graceful.1, fun other mode storing => ?_⟩
        rcases of_update (· = CallerPc.storeMode mode) storing with ⟨-, now⟩ | before
        · cases now
          exact permitted.2
        · exact ok.graceful.2 other mode before
      case quiet =>
        intro never
        simp [ServerEvent.isShutdownCalled] at never
      case drained =>
        rintro ⟨id, finished⟩ event accepted
        exact ok.drained_after finished accepted
  | start | wait | trySubmit =>
      exact ok.goto rfl ok.graceful.1 (by simp) (by simp [CallerPc.task]) .inl (fun _ => id)
        (fun _ => id) rfl

theorem DrainOk.caller (ok : DrainOk trace server)
    (moved : CallerMove config server thread next events) : DrainOk (trace ++ events) next := by
  have spawned : ∀ id, (Function.update server.loops server.spawned .tryPop id).stopping = true →
      (server.loops id).stopping = true := fun _ =>
    before_update (LoopPc.stopping · = true) (by simp [LoopPc.stopping])
  have spawnedLeft : ∀ id, Function.update server.loops server.spawned .tryPop id = .finished →
      server.loops id = .finished := fun _ => before_update (· = LoopPc.finished) (by simp)
  cases moved with
  | spawns here more =>
      exact ok.goto rfl ok.graceful.1 (by simp) (by simp [CallerPc.task]) .inl spawned spawnedLeft
        rfl
  | spawnsLast here last =>
      exact ok.goto rfl ok.graceful.1 (by simp) (by simp [CallerPc.task]) .inl spawned spawnedLeft
        rfl
  | storesMode here =>
      exact ok.goto rfl (ok.graceful.2 _ _ here) (by simp) (fun _ => by rw [here]; rfl) .inl
        (fun _ => id) (fun _ => id) rfl
  | requestsStop here =>
      exact ok.goto rfl ok.graceful.1 (by simp) (fun _ => by rw [here]; rfl)
        (fun _ => .inr (by rw [here]; rfl)) (fun _ => id) (fun _ => id) rfl
  | notifiesAll here =>
      refine ok.goto rfl ok.graceful.1 (by simp) (by simp [CallerPc.task]) .inl ?_ ?_ rfl
      · intro id stops
        simp only [Server.goto, wakeAll] at stops
        split at stops
        · simp [LoopPc.stopping] at stops
        · exact stops
      · exact fun id => finished_wakeAll.mp
  | @notifiesOne wakes here picked =>
      refine ok.goto rfl ok.graceful.1 (by simp) (by simp [CallerPc.task]) .inl ?_ ?_ rfl
      · exact fun _ => before_update (LoopPc.stopping · = true) (by simp [LoopPc.stopping])
      · exact fun _ => before_update (· = LoopPc.finished) (by simp)
  | terminates here unjoined =>
      have same : server.callers = Function.update server.callers thread .clearWorkers := by
        rw [← here, Function.update_eq_self]
      exact ok.goto same ok.graceful.1 (by simp) (by simp [CallerPc.task]) .inl (fun _ => id)
        (fun _ => id) rfl
  | checksState here =>
      obtain ⟨task, _⟩ := afterState_task server config (server.submission thread)
      refine ok.goto rfl ok.graceful.1 ?_ (by simp [task]) .inl (fun _ => id) (fun _ => id) rfl
      intro mode storing
      rw [storing] at task
      cases task
  | clearsStop here =>
      exact ok.goto rfl ok.graceful.1 (by simp) (by simp [CallerPc.task])
        (fun stops => Bool.noConfusion stops) (fun _ => id) (fun _ => id) rfl
  | notStopped here was | storesStopping here =>
      exact ok.goto rfl ok.graceful.1 (by simp) (fun _ => by rw [here]; rfl) .inl (fun _ => id)
        (fun _ => id) rfl
  | _ =>
      exact ok.goto rfl ok.graceful.1 (by simp) (by simp [CallerPc.task]) .inl (fun _ => id)
        (fun _ => id) rfl

omit [DecidableEq Thread] in
theorem DrainOk.worker (ok : DrainOk trace server) (eventsOk : EventsOk trace server)
    (depth : DepthOk trace server) (accepted : AcceptedCounted trace)
    (sound : server.loops id = .testQueued → server.queuedApprox = 0 → server.queue ≠ [] →
      ∀ thread, server.callers thread = .countQueued →
        server.submission thread ∉ discountedEvents trace)
    (moved : LoopMove config server id next events) : DrainOk (trace ++ events) next := by
  cases moved with
  | seesStop here stop =>
      refine ok.loop rfl rfl rfl rfl (fun _ => ?_) (by simp) rfl
      by_contra never
      have noStop := (ok.quiet (Bool.not_eq_true _ ▸ never)).1
      simp [stop] at noStop
  | forced here mode =>
      rw [ok.graceful.1] at mode
      cases mode
  | notForced here mode =>
      exact ok.loop rfl rfl rfl rfl (fun _ => ok.called (by rw [here]; rfl)) (by simp) rfl
  | exits here zero =>
      have past : (server.loops id).stopping = true := by rw [here]; rfl
      have called := ok.called past
      refine ok.loop rfl rfl rfl rfl (fun _ => called) (fun _ event early => ?_) rfl
      rw [beforeShutdown_append called] at early
      rw [poppedEvents_append]
      refine List.mem_append_left _ (counted_popped eventsOk depth zero (sound here zero) ?_)
      exact accepted event ((List.takeWhile_prefix _).subset early)
  | begins here | decodesNot here =>
      refine ok.loop rfl rfl rfl rfl ?_ ?_ rfl
      · unfold decodeFrom
        split <;> simp [LoopPc.stopping]
      · unfold decodeFrom
        split <;> simp
  | _ => exact ok.loop rfl rfl rfl rfl (by simp [LoopPc.stopping]) (by simp) rfl

structure GracefulOk (trace : List (ServerEvent Thread)) (server : Server Thread) : Prop where
  events : EventsOk trace server
  start : StartOk trace server
  depth : DepthOk trace server
  processing : ProcessingOk trace server
  counters : CountersOk trace server
  accepted : AcceptedCounted trace
  drain : DrainOk trace server

theorem GracefulOk.step (ok : GracefulOk trace server) {action : ServerAction Thread}
    (permitted : drainedRun trace server action)
    (moved : Move config server action next events) : GracefulOk (trace ++ events) next where
  events := ok.events.step moved
  start := ok.start.step ok.events permitted.1.1 moved
  depth := by
    refine ok.depth.step ?_ moved
    cases action with
    | caller thread wakes =>
        refine ⟨fun here => ?_, permitted.2⟩
        exact ok.start.even ok.events (show (server.callers thread).task = .start by rw [here]; rfl)
    | _ => trivial
  processing := ok.processing.step ok.events moved
  counters := ok.counters.step moved
  accepted := ok.accepted.step ok.events ok.counters moved
  drain := by
    cases moved with
    | call _ entry => exact ok.drain.calls permitted.1 entry
    | caller moved => exact ok.drain.caller moved
    | worker moved => exact ok.drain.worker ok.events ok.depth ok.accepted permitted.2 moved
    | wake here => exact ok.drain.loop rfl rfl rfl rfl (by simp [LoopPc.stopping]) (by simp) rfl

omit [DecidableEq Thread] in
theorem GracefulOk.initial : GracefulOk [] (Server.initial : Server Thread) where
  events := .initial
  start := .initial
  depth := .initial
  processing := .initial
  counters := .initial
  accepted := nofun
  drain := ⟨⟨rfl, nofun⟩, fun _ => ⟨rfl, nofun, fun _ => rfl⟩, fun ⟨_, left⟩ => nomatch left⟩

omit [DecidableEq Thread] in
/-- With every worker finished, what is popped is processed. -/
theorem processed_of_finished (events : EventsOk trace server) (ok : ProcessingOk trace server)
    (finished : ∀ id, id < server.spawned → server.loops id = .finished)
    {event : Submission Thread} (popped : event ∈ poppedEvents trace) :
    event ∈ beganEvents trace ∧ event ∈ returnedEvents trace := by
  have ended : ∀ id, server.loops id = .finished ∨ server.loops id = .absent := by
    intro id
    by_cases spawned : id < server.spawned
    · exact .inl (finished id spawned)
    · exact .inr (events.absent id (Nat.le_of_not_lt spawned))
  have began : event ∈ beganEvents trace := by
    refine ok.fetched.all_done (fun id => ?_) popped
    rcases ended id with pc | pc <;> rw [pc] <;> rfl
  refine ⟨began, ok.processed.all_done (fun id => ?_) began⟩
  rcases ended id with pc | pc <;> rw [pc] <;> rfl

/-- What was accepted before the first call of `shutdown` has been processed when a `wait` has
returned, if no worker leaves on a counter that has lost an event. -/
theorem graceful_shutdown_drains
    (reached : (serverMachine config Thread).Reaches drainedRun trace server)
    (afterWait : waited trace = true) {event : Submission Thread}
    (accepted : .submitReturned event .accepted ∈ beforeShutdown trace) :
    event ∈ beganEvents trace ∧ event ∈ returnedEvents trace := by
  have ok : GracefulOk trace server := reached.invariant GracefulOk .initial
    fun _ _ _ _ _ ok permitted stepped => ok.step permitted (step_move stepped).2
  have finished : ∀ id, id < server.spawned → server.loops id = .finished :=
    ok.start.joined (.inr afterWait)
  have counted := ok.accepted event ((List.takeWhile_prefix _).subset accepted)
  have pushed : event ∈ pushedEvents trace := ((ok.events.events.counted event).mp counted).1
  have some : 0 < server.spawned := by
    have returned := waited_returned afterWait
    cases ok.start.phase with
    | before called notReturned | during _ called notReturned =>
        rw [show trace.any ServerEvent.isStartReturned = false from notReturned] at returned
        cases returned
    | started called returned some tasks => exact some
    | refused called returned down empty =>
        rw [show pushedEvents trace = [] from empty] at pushed
        cases pushed
  exact processed_of_finished ok.events ok.processing finished
    (ok.drain.drained ⟨0, finished 0 some⟩ event accepted)

instance [Fintype Thread] (trace : List (ServerEvent Thread)) (server : Server Thread)
    (action : ServerAction Thread) : Decidable (gracefulRun trace server action) :=
  match action with
  | .shutdown _ _ => inferInstanceAs (Decidable (True ∧ _))
  | .start _ => inferInstanceAs (Decidable ((_ ∧ _) ∧ True))
  | .wait _ => inferInstanceAs (Decidable ((_ → _) ∧ True))
  | .trySubmit _ => inferInstanceAs (Decidable (_ ∧ True))
  | .caller _ _ | .worker _ _ | .wake _ => .isTrue ⟨trivial, trivial⟩

instance [Fintype Thread] (trace : List (ServerEvent Thread)) (server : Server Thread)
    (action : ServerAction Thread) : Decidable (drainedRun trace server action) :=
  match action with
  | .worker _ _ => inferInstanceAs (Decidable (_ ∧ (_ → _ → _ → _)))
  | .caller _ _ => inferInstanceAs (Decidable (_ ∧ (_ → _)))
  | .start _ | .shutdown _ _ | .wait _ | .trySubmit _ => inferInstanceAs (Decidable (_ ∧ True))
  | .wake _ => .isTrue ⟨⟨trivial, trivial⟩, trivial⟩

def strandedSchedule : List (ServerAction Bool) :=
  [ServerAction.start false] ++ List.replicate 4 (ServerAction.caller false 0) ++
    [ServerAction.trySubmit true] ++ List.replicate 3 (ServerAction.caller true 0) ++
    [ServerAction.trySubmit false] ++ List.replicate 2 (ServerAction.caller false 0) ++
    List.replicate 9 (ServerAction.worker 0 true) ++
    List.replicate 4 (ServerAction.caller false 0) ++
    [ServerAction.shutdown false .graceful] ++ List.replicate 5 (ServerAction.caller false 0) ++
    List.replicate 3 (ServerAction.worker 0 true) ++ [ServerAction.wait false] ++
    List.replicate 5 (ServerAction.caller false 0)

theorem strandedSchedule_runs :
    ((serverMachine sampleConfig Bool).exec gracefulRun []
      (serverMachine sampleConfig Bool).start strandedSchedule).isSome = true := by
  decide +kernel

/-- The event accepted before the shutdown is still queued when `wait` has returned. -/
theorem graceful_shutdown_strands :
    ∃ trace, ∃ server : Server Bool,
      (serverMachine sampleConfig Bool).Reaches gracefulRun trace server ∧ waited trace = true ∧
      .submitReturned ⟨false, 0⟩ .accepted ∈ beforeShutdown trace ∧
      ⟨false, 0⟩ ∉ beganEvents trace ∧ server.queue = [⟨false, 0⟩] :=
  ⟨_, _, EventMachine.reaches_of_isSome strandedSchedule_runs, by decide +kernel,
    by decide +kernel, by decide +kernel, by decide +kernel⟩

def drainedSchedule : List (ServerAction Bool) :=
  [ServerAction.start false] ++ List.replicate 4 (ServerAction.caller false 0) ++
    [ServerAction.trySubmit true] ++ List.replicate 6 (ServerAction.caller true 0) ++
    [ServerAction.trySubmit true] ++ List.replicate 2 (ServerAction.caller true 0) ++
    [ServerAction.shutdown false .graceful] ++ List.replicate 5 (ServerAction.caller false 0) ++
    List.replicate 12 (ServerAction.worker 0 true) ++ [ServerAction.wait false] ++
    List.replicate 5 (ServerAction.caller false 0)

theorem drainedSchedule_runs :
    ((serverMachine sampleConfig Bool).exec drainedRun []
      (serverMachine sampleConfig Bool).start drainedSchedule).isSome = true := by
  decide +kernel

theorem graceful_shutdown_drains_sample :
    (⟨true, 0⟩ : Submission Bool) ∈ beganEvents (Option.get _ drainedSchedule_runs).1 ∧
      ⟨true, 0⟩ ∈ returnedEvents (Option.get _ drainedSchedule_runs).1 :=
  graceful_shutdown_drains (EventMachine.reaches_of_isSome drainedSchedule_runs)
    (by decide +kernel) (by decide +kernel)

end Server

end MyServer
