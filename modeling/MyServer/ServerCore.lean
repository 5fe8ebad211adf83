import MyServer.EventMachine

/-!
`Server`: any number of threads that call `start`, `shutdown`, `wait` and `trySubmit`, and
the worker threads in `workerLoop`. Every access to an atomic, to the queue or to the
condition variable is one step; what a thread does between two of them belongs to one.
-/

namespace MyServer

inductive ServerState
  | created
  | running
  | stopping
  | stopped
  | failed
  deriving DecidableEq

inductive ShutdownMode
  | graceful
  | force
  deriving DecidableEq

inductive SubmitStatus
  | accepted
  | rejectedFull
  | rejectedStopped
  | invalid
  | error
  deriving DecidableEq

/-- What the members of a `Server` do not change: `ExecutionConfig`, the number of adapters
and what `QueueT::tryPush` answers for a queue of some length. -/
structure ServerConfig where
  workerCount : UInt32
  enableBackpressure : Bool
  queueCapacity : UInt64
  adapters : Nat
  tryPushes : Nat → Bool

/-- The event given to one `trySubmit` call, named by its thread and the calls before it. -/
structure Submission (Thread : Type) where
  thread : Thread
  call : Nat
  deriving DecidableEq

structure MetricsMixin where
  accepted : UInt64
  rejectedFull : UInt64
  rejectedStopped : UInt64
  invalid : UInt64
  error : UInt64
  inflight : UInt64

namespace MetricsMixin

def onAccepted (metrics : MetricsMixin) : MetricsMixin :=
  { metrics with accepted := metrics.accepted + 1 }

def onRejectedFull (metrics : MetricsMixin) : MetricsMixin :=
  { metrics with rejectedFull := metrics.rejectedFull + 1 }

def onRejectedStopped (metrics : MetricsMixin) : MetricsMixin :=
  { metrics with rejectedStopped := metrics.rejectedStopped + 1 }

def onInvalid (metrics : MetricsMixin) : MetricsMixin :=
  { metrics with invalid := metrics.invalid + 1 }

def onError (metrics : MetricsMixin) : MetricsMixin :=
  { metrics with error := metrics.error + 1 }

def inflightInc (metrics : MetricsMixin) : MetricsMixin :=
  { metrics with inflight := metrics.inflight + 1 }

def inflightDec (metrics : MetricsMixin) : MetricsMixin :=
  { metrics with inflight := metrics.inflight - 1 }

end MetricsMixin

/-- Where a thread is in `start` (to `spawn`), `shutdown` (to `notifyAll`), `wait` (to
`storeStopped`) or `trySubmit`. -/
inductive CallerPc
  | idle
  /-- The compare-exchange of `state_` from `created`. -/
  | exchangeCreated
  /-- The compare-exchange of `state_` from `stopped`. -/
  | exchangeStopped
  | clearStop
  | clearQueued
  /-- The loop over `workers_.emplace_back`. -/
  | spawn (i : Nat)
  | storeMode (mode : ShutdownMode)
  | testState
  | storeStopping
  | requestStop
  | notifyAll
  /-- The loop over `t.join()`. -/
  | join (index : Nat)
  | clearWorkers
  | readState
  | storeStopped
  | checkRunning
  | checkDepth
  | tryPush
  | countQueued
  | countAccepted
  | notifyOne
  /-- A metric's increment, `on_submit_result` and the return. -/
  | reject (status : SubmitStatus)
  deriving DecidableEq

inductive LoopPc (Thread : Type)
  | absent
  | tryPop
  /-- `queuedApprox_.fetch_sub` in `tryPopOne`. -/
  | discount (event : Submission Thread)
  | inflightInc (event : Submission Thread)
  /-- `processEvent`, in `decodeEventImpl<adapter>`. -/
  | decode (event : Submission Thread) (adapter : Nat)
  | parse (event : Submission Thread)
  | execute (event : Submission Thread)
  | distribute (event : Submission Thread)
  | countError (event : Submission Thread)
  | inflightDec
  /-- `shouldExitWorker`. -/
  | testStop
  | testMode
  | testQueued
  /-- `std::unique_lock lk(wakeMutex_)`. -/
  | lock
  /-- The predicate of `wakeCv_.wait`. -/
  | predQueued
  | predStop
  /-- The predicate was false: the mutex is released and the worker blocks. -/
  | block
  | blocked
  | notified
  | unlock
  | finished
  deriving DecidableEq

/-- A `std::thread` in `workers_`. -/
structure WorkerHandle where
  id : Nat
  joinable : Bool
  deriving DecidableEq

structure Server (Thread : Type) where
  state : ServerState
  shutdownMode : ShutdownMode
  stopRequested : Bool
  queuedApprox : UInt64
  queue : List (Submission Thread)
  metrics : MetricsMixin
  /-- The worker that holds `wakeMutex_`. -/
  wakeMutex : Option Nat
  workers : List WorkerHandle
  loops : Nat → LoopPc Thread
  spawned : Nat
  callers : Thread → CallerPc
  /-- The `trySubmit` calls of a thread that have returned. -/
  submits : Thread → Nat
  /-- `std::terminate` was called. -/
  terminated : Bool

inductive ServerEvent (Thread : Type)
  | startCalled (thread : Thread)
  | startReturned (thread : Thread) (result : Bool)
  | shutdownCalled (thread : Thread) (mode : ShutdownMode)
  | shutdownReturned (thread : Thread)
  | waitCalled (thread : Thread)
  | waitReturned (thread : Thread)
  | submitCalled (event : Submission Thread)
  /-- `hooks_.on_submit_result`. -/
  | submitResult (event : Submission Thread) (status : SubmitStatus)
  | submitReturned (event : Submission Thread) (status : SubmitStatus)
  /-- `stopRequested_.store(false)` in `start`. -/
  | stopCleared
  /-- `stopRequested_.store(true)` in `shutdown`. -/
  | stopRequested (thread : Thread)
  /-- `queuedApprox_.store(0)` in `start`. -/
  | depthCleared
  /-- `workers_.emplace_back` in `start`. -/
  | spawned (id : Nat)
  | pushed (event : Submission Thread)
  | counted (event : Submission Thread)
  | popped (event : Submission Thread)
  | discounted (event : Submission Thread)
  | processBegan (event : Submission Thread)
  | distributed (event : Submission Thread)
  | processReturned (event : Submission Thread)
  | terminated
  deriving DecidableEq

/-- `wakes` is the worker that `notify_one` picks, `answer` what an adapter, the parser or
the executor returns; `wake` is a spurious wakeup. -/
inductive ServerAction (Thread : Type)
  | start (thread : Thread)
  | shutdown (thread : Thread) (mode : ShutdownMode)
  | wait (thread : Thread)
  | trySubmit (thread : Thread)
  | caller (thread : Thread) (wakes : Nat)
  | worker (id : Nat) (answer : Bool)
  | wake (id : Nat)

variable {Thread : Type}

def validateEvent (_ : Submission Thread) : Bool := true

/-- The number of threads `start` spawns. -/
def ServerConfig.workerTotal (config : ServerConfig) : Nat :=
  if config.workerCount = 0 then 1 else config.workerCount.toNat

namespace Server

def initial : Server Thread where
  state := .created
  shutdownMode := .graceful
  stopRequested := false
  queuedApprox := 0
  queue := []
  metrics := ⟨0, 0, 0, 0, 0, 0⟩
  wakeMutex := none
  workers := []
  loops := fun _ => .absent
  spawned := 0
  callers := fun _ => .idle
  submits := fun _ => 0
  terminated := false

variable [DecidableEq Thread] (server : Server Thread)

/-- The event of the thread's current `trySubmit` call. -/
def submission (thread : Thread) : Submission Thread := ⟨thread, server.submits thread⟩

def goto (thread : Thread) (pc : CallerPc) : Server Thread :=
  { server with callers := Function.update server.callers thread pc }

def loopGoto (id : Nat) (pc : LoopPc Thread) : Server Thread :=
  { server with loops := Function.update server.loops id pc }

def submitted (thread : Thread) : Server Thread :=
  { server with
    callers := Function.update server.callers thread .idle
    submits := Function.update server.submits thread (server.submits thread + 1) }

def anyBlocked : Bool := (List.range server.spawned).any fun id => server.loops id = .blocked

def wakeAll (loops : Nat → LoopPc Thread) (id : Nat) : LoopPc Thread :=
  if loops id = .blocked then .notified else loops id

/-- What `trySubmit` does after it has read `state_`. -/
def afterState (config : ServerConfig) (event : Submission Thread) : CallerPc :=
  if server.state ≠ .running then .reject .rejectedStopped
  else if !validateEvent event then .reject .invalid
  else if config.enableBackpressure then .checkDepth
  else .tryPush

/-- The metric of a rejected `trySubmit` call. -/
def rejected : SubmitStatus → MetricsMixin → MetricsMixin
  | .rejectedFull => .onRejectedFull
  | .rejectedStopped => .onRejectedStopped
  | .invalid => .onInvalid
  | _ => id

def callerStep (config : ServerConfig) (thread : Thread) (wakes : Nat) :
    Option (Server Thread × List (ServerEvent Thread)) :=
  match server.callers thread with
  | .idle => none
  | .exchangeCreated =>
      if server.state = .created then
        some ({ server with state := .running }.goto thread .clearStop, [])
      else some (server.goto thread .exchangeStopped, [])
  | .exchangeStopped =>
      if server.state = .stopped then
        some ({ server with state := .running }.goto thread .clearStop, [])
      else some (server.goto thread .idle, [.startReturned thread false])
  | .clearStop =>
      some ({ server with stopRequested := false }.goto thread .clearQueued, [.stopCleared])
  | .clearQueued =>
      some ({ server with queuedApprox := 0 }.goto thread (.spawn 0), [.depthCleared])
  | .spawn i =>
      let server' := { server with
        workers := server.workers ++ [WorkerHandle.mk server.spawned true]
        loops := Function.update server.loops server.spawned .tryPop
        spawned := server.spawned + 1 }
      if i + 1 < config.workerTotal then
        some (server'.goto thread (.spawn (i + 1)), [.spawned server.spawned])
      else
        some (server'.goto thread .idle, [.spawned server.spawned, .startReturned thread true])
  | .storeMode mode => some ({ server with shutdownMode := mode }.goto thread .testState, [])
  | .testState =>
      if server.state = .stopped ∨ server.state = .failed then
        some (server.goto thread .idle, [.shutdownReturned thread])
      else some (server.goto thread .storeStopping, [])
  | .storeStopping => some ({ server with state := .stopping }.goto thread .requestStop, [])
  | .requestStop =>
      some ({ server with stopRequested := true }.goto thread .notifyAll,
        [.stopRequested thread])
  | .notifyAll =>
      some ({ server with loops := wakeAll server.loops }.goto thread .idle,
        [.shutdownReturned thread])
  | .join index =>
      match server.workers[index]? with
      | none => some (server.goto thread .clearWorkers, [])
      | some ⟨id, joinable⟩ =>
          if joinable then
            match server.loops id with
            | .finished =>
                some ({ server with workers := server.workers.set index (.mk id false) }.goto thread
                  (.join (index + 1)), [])
            | _ => none
          else some (server.goto thread (.join (index + 1)), [])
  | .clearWorkers =>
      -- the destructor of a joinable `std::thread`
      if server.workers.any WorkerHandle.joinable then
        some ({ server with terminated := true }, [.terminated])
      else some ({ server with workers := [] }.goto thread .readState, [])
  | .readState =>
      if server.state = .failed then
        some (server.goto thread .idle, [.waitReturned thread])
      else some (server.goto thread .storeStopped, [])
  | .storeStopped =>
      some ({ server with state := .stopped }.goto thread .idle, [.waitReturned thread])
  | .checkRunning =>
      some (server.goto thread (server.afterState config (server.submission thread)), [])
  | .checkDepth =>
      if server.queuedApprox ≥ config.queueCapacity then
        some (server.goto thread (.reject .rejectedFull), [])
      else some (server.goto thread .tryPush, [])
  | .tryPush =>
      if config.tryPushes server.queue.length then
        some ({ server with queue := server.queue ++ [server.submission thread] }.goto thread
          .countQueued, [.pushed (server.submission thread)])
      else some (server.goto thread (.reject .rejectedFull), [])
  | .countQueued =>
      some ({ server with queuedApprox := server.queuedApprox + 1 }.goto thread .countAccepted,
        [.counted (server.submission thread)])
  | .countAccepted =>
      some ({ server with metrics := server.metrics.onAccepted }.goto thread .notifyOne,
        [.submitResult (server.submission thread) .accepted])
  | .notifyOne =>
      if server.anyBlocked then
        if server.loops wakes = .blocked then
          some ((server.loopGoto wakes .notified).submitted thread,
            [.submitReturned (server.submission thread) .accepted])
        else none
      else some (server.submitted thread, [.submitReturned (server.submission thread) .accepted])
  | .reject status =>
      some ({ server with metrics := rejected status server.metrics }.submitted thread,
        [.submitResult (server.submission thread) status,
          .submitReturned (server.submission thread) status])

/-- `decodeEventImpl<adapter>`, or `false` after the last adapter. -/
def decodeFrom (config : ServerConfig) (event : Submission Thread) (adapter : Nat) :
    LoopPc Thread :=
  if adapter < config.adapters then .decode event adapter else .countError event

def loopStep (config : ServerConfig) (id : Nat) (answer : Bool) :
    Option (Server Thread × List (ServerEvent Thread)) :=
  match server.loops id with
  | .absent | .finished | .blocked => none
  | .tryPop =>
      match server.queue with
      | event :: queue =>
          some ({ server with queue }.loopGoto id (.discount event), [.popped event])
      | [] => some (server.loopGoto id .testStop, [])
  | .discount event =>
      some ({ server with queuedApprox := server.queuedApprox - 1 }.loopGoto id
        (.inflightInc event), [.discounted event])
  | .inflightInc event =>
      some ({ server with metrics := server.metrics.inflightInc }.loopGoto id
        (decodeFrom config event 0), [.processBegan event])
  | .decode event adapter =>
      if answer then some (server.loopGoto id (.parse event), [])
      else some (server.loopGoto id (decodeFrom config event (adapter + 1)), [])
  | .parse event =>
      if answer then some (server.loopGoto id (.execute event), [])
      else some (server.loopGoto id (.countError event), [])
  | .execute event =>
      if answer then some (server.loopGoto id (.distribute event), [])
      else some (server.loopGoto id (.countError event), [])
  | .distribute event =>
      some (server.loopGoto id .inflightDec, [.distributed event, .processReturned event])
  | .countError event =>
      some ({ server with metrics := server.metrics.onError }.loopGoto id .inflightDec,
        [.processReturned event])
  | .inflightDec =>
      some ({ server with metrics := server.metrics.inflightDec }.loopGoto id .tryPop, [])
  | .testStop =>
      if server.stopRequested then some (server.loopGoto id .testMode, [])
      else some (server.loopGoto id .lock, [])
  | .testMode =>
      if server.shutdownMode = .force then some (server.loopGoto id .finished, [])
      else some (server.loopGoto id .testQueued, [])
  | .testQueued =>
      if server.queuedApprox = 0 then some (server.loopGoto id .finished, [])
      else some (server.loopGoto id .lock, [])
  | .lock | .notified =>
      match server.wakeMutex with
      | none => some ({ server with wakeMutex := some id }.loopGoto id .predQueued, [])
      | some _ => none
  | .predQueued =>
      if server.queuedApprox > 0 then some (server.loopGoto id .unlock, [])
      else some (server.loopGoto id .predStop, [])
  | .predStop =>
      if server.stopRequested then some (server.loopGoto id .unlock, [])
      else some (server.loopGoto id .block, [])
  | .block => some ({ server with wakeMutex := none }.loopGoto id .blocked, [])
  | .unlock => some ({ server with wakeMutex := none }.loopGoto id .tryPop, [])

def call (thread : Thread) (pc : CallerPc) (event : ServerEvent Thread) :
    Option (Server Thread × List (ServerEvent Thread)) :=
  if server.callers thread = .idle then some (server.goto thread pc, [event]) else none

def step (config : ServerConfig) (action : ServerAction Thread) :
    Option (Server Thread × List (ServerEvent Thread)) :=
  if server.terminated then none
  else
    match action with
    | .start thread => server.call thread .exchangeCreated (.startCalled thread)
    | .shutdown thread mode => server.call thread (.storeMode mode) (.shutdownCalled thread mode)
    | .wait thread => server.call thread (.join 0) (.waitCalled thread)
    | .trySubmit thread =>
        server.call thread .checkRunning (.submitCalled (server.submission thread))
    | .caller thread wakes => server.callerStep config thread wakes
    | .worker id answer => server.loopStep config id answer
    | .wake id =>
        if server.loops id = .blocked then some (server.loopGoto id .notified, []) else none

end Server

def serverMachine (config : ServerConfig) (Thread : Type) [DecidableEq Thread] :
    EventMachine (Server Thread) (ServerAction Thread) (ServerEvent Thread) where
  start := .initial
  step := fun server action => server.step config action

end MyServer
