import MyServer.ServerCore

/-!
What one step of a calling thread or of a worker can be. Each constructor is one transition
of the four calls or of `workerLoop` together with what was read to take it.
-/

namespace MyServer

namespace Server

variable {Thread : Type} [DecidableEq Thread]

inductive CallerMove (config : ServerConfig) (server : Server Thread) (thread : Thread) :
    Server Thread → List (ServerEvent Thread) → Prop
  | created (here : server.callers thread = .exchangeCreated) (fresh : server.state = .created) :
      CallerMove config server thread ({ server with state := .running }.goto thread .clearStop) []
  | notCreated (here : server.callers thread = .exchangeCreated)
      (other : server.state ≠ .created) :
      CallerMove config server thread (server.goto thread .exchangeStopped) []
  | restarted (here : server.callers thread = .exchangeStopped) (was : server.state = .stopped) :
      CallerMove config server thread ({ server with state := .running }.goto thread .clearStop) []
  | startRefused (here : server.callers thread = .exchangeStopped)
      (other : server.state ≠ .stopped) :
      CallerMove config server thread (server.goto thread .idle) [.startReturned thread false]
  | clearsStop (here : server.callers thread = .clearStop) :
      CallerMove config server thread
        ({ server with stopRequested := false }.goto thread .clearQueued) [.stopCleared]
  | clearsQueued (here : server.callers thread = .clearQueued) :
      CallerMove config server thread
        ({ server with queuedApprox := 0 }.goto thread (.spawn 0)) [.depthCleared]
  | spawns {i} (here : server.callers thread = .spawn i) (more : i + 1 < config.workerTotal) :
      CallerMove config server thread
        ({ server with
            workers := server.workers ++ [WorkerHandle.mk server.spawned true]
            loops := Function.update server.loops server.spawned .tryPop
            spawned := server.spawned + 1 }.goto thread (.spawn (i + 1)))
        [.spawned server.spawned]
  | spawnsLast {i} (here : server.callers thread = .spawn i)
      (last : ¬i + 1 < config.workerTotal) :
      CallerMove config server thread
        ({ server with
            workers := server.workers ++ [WorkerHandle.mk server.spawned true]
            loops := Function.update server.loops server.spawned .tryPop
            spawned := server.spawned + 1 }.goto thread .idle)
        [.spawned server.spawned, .startReturned thread true]
  | storesMode {mode} (here : server.callers thread = .storeMode mode) :
      CallerMove config server thread
        ({ server with shutdownMode := mode }.goto thread .testState) []
  | alreadyStopped (here : server.callers thread = .testState)
      (was : server.state = .stopped ∨ server.state = .failed) :
      CallerMove config server thread (server.goto thread .idle) [.shutdownReturned thread]
  | notStopped (here : server.callers thread = .testState)
      (was : ¬(server.state = .stopped ∨ server.state = .failed)) :
      CallerMove config server thread (server.goto thread .storeStopping) []
  | storesStopping (here : server.callers thread = .storeStopping) :
      CallerMove config server thread
        ({ server with state := .stopping }.goto thread .requestStop) []
  | requestsStop (here : server.callers thread = .requestStop) :
      CallerMove config server thread
        ({ server with stopRequested := true }.goto thread .notifyAll) [.stopRequested thread]
  | notifiesAll (here : server.callers thread = .notifyAll) :
      CallerMove config server thread
        ({ server with loops := wakeAll server.loops }.goto thread .idle)
        [.shutdownReturned thread]
  | joinedAll {index} (here : server.callers thread = .join index)
      (past : server.workers[index]? = none) :
      CallerMove config server thread (server.goto thread .clearWorkers) []
  | joins {index id} (here : server.callers thread = .join index)
      (found : server.workers[index]? = some ⟨id, true⟩)
      (done : server.loops id = .finished) :
      CallerMove config server thread
        ({ server with workers := server.workers.set index (.mk id false) }.goto thread
          (.join (index + 1))) []
  | joinedBefore {index id} (here : server.callers thread = .join index)
      (found : server.workers[index]? = some ⟨id, false⟩) :
      CallerMove config server thread (server.goto thread (.join (index + 1))) []
  | terminates (here : server.callers thread = .clearWorkers)
      (unjoined : server.workers.any WorkerHandle.joinable = true) :
      CallerMove config server thread { server with terminated := true } [.terminated]
  | clearsWorkers (here : server.callers thread = .clearWorkers)
      (joined : server.workers.any WorkerHandle.joinable = false) :
      CallerMove config server thread ({ server with workers := [] }.goto thread .readState) []
  | readsFailed (here : server.callers thread = .readState) (was : server.state = .failed) :
      CallerMove config server thread (server.goto thread .idle) [.waitReturned thread]
  | readsState (here : server.callers thread = .readState) (was : server.state ≠ .failed) :
      CallerMove config server thread (server.goto thread .storeStopped) []
  | storesStopped (here : server.callers thread = .storeStopped) :
      CallerMove config server thread
        ({ server with state := .stopped }.goto thread .idle) [.waitReturned thread]
  | checksState (here : server.callers thread = .checkRunning) :
      CallerMove config server thread
        (server.goto thread (server.afterState config (server.submission thread))) []
  | seesFull (here : server.callers thread = .checkDepth)
      (deep : server.queuedApprox ≥ config.queueCapacity) :
      CallerMove config server thread (server.goto thread (.reject .rejectedFull)) []
  | seesRoom (here : server.callers thread = .checkDepth)
      (shallow : ¬server.queuedApprox ≥ config.queueCapacity) :
      CallerMove config server thread (server.goto thread .tryPush) []
  | pushes (here : server.callers thread = .tryPush)
      (room : config.tryPushes server.queue.length = true) :
      CallerMove config server thread
        ({ server with queue := server.queue ++ [server.submission thread] }.goto thread
          .countQueued) [.pushed (server.submission thread)]
  | pushFails (here : server.callers thread = .tryPush)
      (noRoom : config.tryPushes server.queue.length = false) :
      CallerMove config server thread (server.goto thread (.reject .rejectedFull)) []
  | counts (here : server.callers thread = .countQueued) :
      CallerMove config server thread
        ({ server with queuedApprox := server.queuedApprox + 1 }.goto thread .countAccepted)
        [.counted (server.submission thread)]
  | accepts (here : server.callers thread = .countAccepted) :
      CallerMove config server thread
        ({ server with metrics := server.metrics.onAccepted }.goto thread .notifyOne)
        [.submitResult (server.submission thread) .accepted]
  | notifiesOne {wakes} (here : server.callers thread = .notifyOne)
      (picked : server.loops wakes = .blocked) :
      CallerMove config server thread ((server.loopGoto wakes .notified).submitted thread)
        [.submitReturned (server.submission thread) .accepted]
  | notifiesNobody (here : server.callers thread = .notifyOne)
      (nobody : server.anyBlocked = false) :
      CallerMove config server thread (server.submitted thread)
        [.submitReturned (server.submission thread) .accepted]
  | rejects {status} (here : server.callers thread = .reject status) :
      CallerMove config server thread
        ({ server with metrics := rejected status server.metrics }.submitted thread)
        [.submitResult (server.submission thread) status,
          .submitReturned (server.submission thread) status]

theorem caller_move {config : ServerConfig} {server next : Server Thread} {thread : Thread}
    {wakes : Nat} {events : List (ServerEvent Thread)}
    (stepped : server.callerStep config thread wakes = some (next, events)) :
    CallerMove config server thread next events := by
  unfold callerStep at stepped
  split at stepped
  · simp at stepped
  · rename_i here
    split at stepped
    · rename_i fresh
      cases stepped
      exact .created here fresh
    · rename_i other
      cases stepped
      exact .notCreated here other
  · rename_i here
    split at stepped
    · rename_i was
      cases stepped
      exact .restarted here was
    · rename_i other
      cases stepped
      exact .startRefused here other
  · rename_i here
    cases stepped
    exact .clearsStop here
  · rename_i here
    cases stepped
    exact .clearsQueued here
  · rename_i i here
    simp only at stepped
    split at stepped
    · rename_i more
      cases stepped
      exact .spawns here more
    · rename_i last
      cases stepped
      exact .spawnsLast here last
  · rename_i mode here
    cases stepped
    exact .storesMode here
  · rename_i here
    split at stepped
    · rename_i was
      cases stepped
      exact .alreadyStopped here was
    · rename_i was
      cases stepped
      exact .notStopped here was
  · rename_i here
    cases stepped
    exact .storesStopping here
  · rename_i here
    cases stepped
    exact .requestsStop here
  · rename_i here
    cases stepped
    exact .notifiesAll here
  · rename_i index here
    split at stepped
    · rename_i past
      cases stepped
      exact .joinedAll here past
    · rename_i id joinable found
      cases joinable with
      | true =>
          simp only [if_true] at stepped
          split at stepped
          · rename_i done
            cases stepped
            exact .joins here found done
          · simp at stepped
      | false =>
          cases stepped
          exact .joinedBefore here found
  · rename_i here
    split at stepped
    · rename_i unjoined
      cases stepped
      exact .terminates here unjoined
    · rename_i joined
      cases stepped
      exact .clearsWorkers here (by simpa using joined)
  · rename_i here
    split at stepped
    · rename_i was
      cases stepped
      exact .readsFailed here was
    · rename_i was
      cases stepped
      exact .readsState here was
  · rename_i here
    cases stepped
    exact .storesStopped here
  · rename_i here
    cases stepped
    exact .checksState here
  · rename_i here
    split at stepped
    · rename_i deep
      cases stepped
      exact .seesFull here deep
    · rename_i shallow
      cases stepped
      exact .seesRoom here shallow
  · rename_i here
    split at stepped
    · rename_i room
      cases stepped
      exact .pushes here room
    · rename_i noRoom
      cases stepped
      exact .pushFails here (by simpa using noRoom)
  · rename_i here
    cases stepped
    exact .counts here
  · rename_i here
    cases stepped
    exact .accepts here
  · rename_i here
    split at stepped
    · split at stepped
      · rename_i picked
        cases stepped
        exact .notifiesOne here picked
      · simp at stepped
    · rename_i nobody
      cases stepped
      exact .notifiesNobody here (by simpa using nobody)
  · rename_i status here
    cases stepped
    exact .rejects here

inductive LoopMove (config : ServerConfig) (server : Server Thread) (id : Nat) :
    Server Thread → List (ServerEvent Thread) → Prop
  | pops {event queue} (here : server.loops id = .tryPop) (found : server.queue = event :: queue) :
      LoopMove config server id ({ server with queue }.loopGoto id (.discount event))
        [.popped event]
  | popsNothing (here : server.loops id = .tryPop) (empty : server.queue = []) :
      LoopMove config server id (server.loopGoto id .testStop) []
  | discounts {event} (here : server.loops id = .discount event) :
      LoopMove config server id
        ({ server with queuedApprox := server.queuedApprox - 1 }.loopGoto id (.inflightInc event))
        [.discounted event]
  | begins {event} (here : server.loops id = .inflightInc event) :
      LoopMove config server id
        ({ server with metrics := server.metrics.inflightInc }.loopGoto id
          (decodeFrom config event 0)) [.processBegan event]
  | decodes {event adapter} (here : server.loops id = .decode event adapter) :
      LoopMove config server id (server.loopGoto id (.parse event)) []
  | decodesNot {event adapter} (here : server.loops id = .decode event adapter) :
      LoopMove config server id
        (server.loopGoto id (decodeFrom config event (adapter + 1))) []
  | parses {event} (here : server.loops id = .parse event) :
      LoopMove config server id (server.loopGoto id (.execute event)) []
  | parsesNot {event} (here : server.loops id = .parse event) :
      LoopMove config server id (server.loopGoto id (.countError event)) []
  | executes {event} (here : server.loops id = .execute event) :
      LoopMove config server id (server.loopGoto id (.distribute event)) []
  | executesNot {event} (here : server.loops id = .execute event) :
      LoopMove config server id (server.loopGoto id (.countError event)) []
  | distributes {event} (here : server.loops id = .distribute event) :
      LoopMove config server id (server.loopGoto id .inflightDec)
        [.distributed event, .processReturned event]
  | countsError {event} (here : server.loops id = .countError event) :
      LoopMove config server id
        ({ server with metrics := server.metrics.onError }.loopGoto id .inflightDec)
        [.processReturned event]
  | ends (here : server.loops id = .inflightDec) :
      LoopMove config server id
        ({ server with metrics := server.metrics.inflightDec }.loopGoto id .tryPop) []
  | seesStop (here : server.loops id = .testStop) (stop : server.stopRequested = true) :
      LoopMove config server id (server.loopGoto id .testMode) []
  | seesNoStop (here : server.loops id = .testStop) (runs : server.stopRequested = false) :
      LoopMove config server id (server.loopGoto id .lock) []
  | forced (here : server.loops id = .testMode) (mode : server.shutdownMode = .force) :
      LoopMove config server id (server.loopGoto id .finished) []
  | notForced (here : server.loops id = .testMode) (mode : server.shutdownMode ≠ .force) :
      LoopMove config server id (server.loopGoto id .testQueued) []
  | exits (here : server.loops id = .testQueued) (zero : server.queuedApprox = 0) :
      LoopMove config server id (server.loopGoto id .finished) []
  | staysFor (here : server.loops id = .testQueued) (more : server.queuedApprox ≠ 0) :
      LoopMove config server id (server.loopGoto id .lock) []
  | locks (here : server.loops id = .lock ∨ server.loops id = .notified)
      (free : server.wakeMutex = none) :
      LoopMove config server id ({ server with wakeMutex := some id }.loopGoto id .predQueued) []
  | seesQueued (here : server.loops id = .predQueued) (more : server.queuedApprox > 0) :
      LoopMove config server id (server.loopGoto id .unlock) []
  | seesNone (here : server.loops id = .predQueued) (zero : server.queuedApprox = 0) :
      LoopMove config server id (server.loopGoto id .predStop) []
  | wakesToStop (here : server.loops id = .predStop) (stop : server.stopRequested = true) :
      LoopMove config server id (server.loopGoto id .unlock) []
  | mayBlock (here : server.loops id = .predStop) (runs : server.stopRequested = false) :
      LoopMove config server id (server.loopGoto id .block) []
  | blocks (here : server.loops id = .block) :
      LoopMove config server id ({ server with wakeMutex := none }.loopGoto id .blocked) []
  | unlocks (here : server.loops id = .unlock) :
      LoopMove config server id ({ server with wakeMutex := none }.loopGoto id .tryPop) []

omit [DecidableEq Thread] in
theorem loop_move {config : ServerConfig} {server next : Server Thread} {id : Nat}
    {answer : Bool} {events : List (ServerEvent Thread)}
    (stepped : server.loopStep config id answer = some (next, events)) :
    LoopMove config server id next events := by
  unfold loopStep at stepped
  split at stepped
  · simp at stepped
  · simp at stepped
  · simp at stepped
  · rename_i here
    split at stepped
    · rename_i event queue found
      cases stepped
      exact .pops here found
    · rename_i empty
      cases stepped
      exact .popsNothing here empty
  · rename_i event here
    cases stepped
    exact .discounts here
  · rename_i event here
    cases stepped
    exact .begins here
  · rename_i event adapter here
    cases answer with
    | true =>
        cases stepped
        exact .decodes here
    | false =>
        cases stepped
        exact .decodesNot here
  · rename_i event here
    cases answer with
    | true =>
        cases stepped
        exact .parses here
    | false =>
        cases stepped
        exact .parsesNot here
  · rename_i event here
    cases answer with
    | true =>
        cases stepped
        exact .executes here
    | false =>
        cases stepped
        exact .executesNot here
  · rename_i event here
    cases stepped
    exact .distributes here
  · rename_i event here
    cases stepped
    exact .countsError here
  · rename_i here
    cases stepped
    exact .ends here
  · rename_i here
    split at stepped
    · rename_i stop
      cases stepped
      exact .seesStop here stop
    · rename_i runs
      cases stepped
      exact .seesNoStop here (by simpa using runs)
  · rename_i here
    split at stepped
    · rename_i mode
      cases stepped
      exact .forced here mode
    · rename_i mode
      cases stepped
      exact .notForced here mode
  · rename_i here
    split at stepped
    · rename_i zero
      cases stepped
      exact .exits here zero
    · rename_i more
      cases stepped
      exact .staysFor here more
  · rename_i here
    split at stepped
    · rename_i free
      cases stepped
      exact .locks (.inl here) free
    · simp at stepped
  · rename_i here
    split at stepped
    · rename_i free
      cases stepped
      exact .locks (.inr here) free
    · simp at stepped
  · rename_i here
    split at stepped
    · rename_i more
      cases stepped
      exact .seesQueued here more
    · rename_i none
      cases stepped
      exact .seesNone here (UInt64.le_zero_iff.mp (UInt64.not_lt.mp none))
  · rename_i here
    split at stepped
    · rename_i stop
      cases stepped
      exact .wakesToStop here stop
    · rename_i runs
      cases stepped
      exact .mayBlock here (by simpa using runs)
  · rename_i here
    cases stepped
    exact .blocks here
  · rename_i here
    cases stepped
    exact .unlocks here

omit [DecidableEq Thread] in
theorem LoopMove.present {config : ServerConfig} {server next : Server Thread} {id : Nat}
    {events : List (ServerEvent Thread)} (moved : LoopMove config server id next events) :
    server.loops id ≠ .absent ∧ server.loops id ≠ .finished := by
  cases moved with
  | locks here free => rcases here with here | here <;> simp [here]
  | _ => simp_all

inductive Entry (server : Server Thread) (thread : Thread) :
    ServerAction Thread → CallerPc → ServerEvent Thread → Prop
  | start : Entry server thread (.start thread) .exchangeCreated (.startCalled thread)
  | shutdown {mode} : Entry server thread (.shutdown thread mode) (.storeMode mode)
      (.shutdownCalled thread mode)
  | wait : Entry server thread (.wait thread) (.join 0) (.waitCalled thread)
  | trySubmit : Entry server thread (.trySubmit thread) .checkRunning
      (.submitCalled (server.submission thread))

inductive Move (config : ServerConfig) (server : Server Thread) :
    ServerAction Thread → Server Thread → List (ServerEvent Thread) → Prop
  | call {thread action pc event} (here : server.callers thread = .idle)
      (entry : Entry server thread action pc event) :
      Move config server action (server.goto thread pc) [event]
  | caller {thread wakes next events} (moved : CallerMove config server thread next events) :
      Move config server (.caller thread wakes) next events
  | worker {id answer next events} (moved : LoopMove config server id next events) :
      Move config server (.worker id answer) next events
  | wake {id} (here : server.loops id = .blocked) :
      Move config server (.wake id) (server.loopGoto id .notified) []

theorem call_some {server next : Server Thread} {thread : Thread} {pc : CallerPc}
    {event : ServerEvent Thread} {events : List (ServerEvent Thread)}
    (stepped : server.call thread pc event = some (next, events)) :
    server.callers thread = .idle ∧ next = server.goto thread pc ∧ events = [event] := by
  unfold call at stepped
  split at stepped
  · rename_i here
    cases stepped
    exact ⟨here, rfl, rfl⟩
  · simp at stepped

theorem step_move {config : ServerConfig} {server next : Server Thread}
    {action : ServerAction Thread} {events : List (ServerEvent Thread)}
    (stepped : server.step config action = some (next, events)) :
    server.terminated = false ∧ Move config server action next events := by
  unfold step at stepped
  split at stepped
  · simp at stepped
  · rename_i alive
    refine ⟨by simpa using alive, ?_⟩
    cases action with
    | start thread =>
        obtain ⟨here, rfl, rfl⟩ := call_some stepped
        exact .call here .start
    | shutdown thread mode =>
        obtain ⟨here, rfl, rfl⟩ := call_some stepped
        exact .call here .shutdown
    | wait thread =>
        obtain ⟨here, rfl, rfl⟩ := call_some stepped
        exact .call here .wait
    | trySubmit thread =>
        obtain ⟨here, rfl, rfl⟩ := call_some stepped
        exact .call here .trySubmit
    | caller thread wakes => exact .caller (caller_move stepped)
    | worker id answer => exact .worker (loop_move stepped)
    | wake id =>
        simp only at stepped
        split at stepped
        · rename_i here
          cases stepped
          exact .wake here
        · simp at stepped

end Server

end MyServer
