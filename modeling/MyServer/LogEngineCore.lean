import MyServer.FreeListCore
import MyServer.MpscQueueCore

/-!
`LogEngine`: any number of threads that call `enqueue` and `shutdown`, and the worker
threads they start. Every atomic access is one step; what a thread does between two
shared accesses belongs to one of them. The free list is a parameter.
-/

namespace MyServer

/-- An element of a pool: the array it belongs to and its index there. -/
structure LogRecord where
  generation : Nat
  index : Nat
  deriving DecidableEq

/-- The envelope given to one `enqueue` call, named by its thread and the calls before it. -/
structure Envelope (Thread : Type) where
  thread : Thread
  call : Nat
  deriving DecidableEq

/-- Where a thread is in `enqueue` (`ensureRunning` to `countEnqueued`) or in `stop_worker`
(`stop`, `join`). -/
inductive ClientPc (list : FreeListSteps LogRecord)
  | idle
  /-- The compare-exchange of `run_` in `ensure_running`. -/
  | ensureRunning
  | allocatePool
  /-- The loop of `init_pool_and_queue` in `freelist_.push(&pool_storage_[index])`. -/
  | fillPool (index : Nat) (pc : list.PushPc)
  /-- `std::thread(&LogEngine::worker_loop, this)`. -/
  | startWorker
  /-- The move assignment to `worker_`, which terminates if `worker_` is joinable. -/
  | assignWorker (id : Nat)
  /-- `acquire_record`, in `freelist_.try_pop()`. -/
  | acquire (pc : list.PopPc)
  | countDropped
  | construct (record : LogRecord)
  /-- `push_to_queue`, in `queue_.push(rec)`. -/
  | push (pc : PushPc LogRecord)
  | countEnqueued
  /-- The compare-exchange of `run_` in `stop_worker`. -/
  | stop
  | join

/-- Where a worker is in `worker_loop`. The flag `drain` tells the second loop from the
first, `pending` is `pending_recycle`. -/
inductive WorkerPc (list : FreeListSteps LogRecord)
  | absent
  | loadRun (pending : Option LogRecord)
  | checkEmpty (pending : Option LogRecord) (pc : EmptyPc LogRecord)
  | pop (drain : Bool) (pending : Option LogRecord) (pc : PopPc LogRecord)
  /-- `freelist_.push(pending_recycle)` with `old` the record pushed. -/
  | recycle (drain : Bool) (record old : LogRecord) (pc : list.PushPc)
  | submit (drain : Bool) (record : LogRecord)
  | destroy (drain : Bool) (record : LogRecord)
  | countWritten (drain : Bool) (record : LogRecord)
  | reset (pending : Option LogRecord) (pc : ResetPc)
  | recycleLast (old : LogRecord) (pc : list.PushPc)
  | finished

structure LogEngine (list : FreeListSteps LogRecord) (Thread : Type) where
  run : Bool
  /-- The number of arrays allocated so far; `pool_storage_` owns the last one. -/
  generation : Nat
  freelist : list.Shared
  queue : MpscQueue LogRecord
  /-- The thread `worker_` can join. -/
  worker : Option Nat
  dropped : UInt64
  enqueued : UInt64
  written : UInt64
  /-- The object living in a record's storage. -/
  stored : LogRecord → Option (Envelope Thread)
  clients : Thread → ClientPc list
  workers : Nat → WorkerPc list
  spawned : Nat
  /-- The `enqueue` calls of a thread that have returned. -/
  returned : Thread → Nat
  /-- `std::terminate` was called. -/
  terminated : Bool

inductive EngineEvent (Thread : Type)
  | enqueueCalled (envelope : Envelope Thread)
  /-- `dropped_` is incremented and `enqueue` returns. -/
  | dropped (envelope : Envelope Thread)
  /-- The record holding the envelope is exchanged into the queue's `tail_`. -/
  | queued (envelope : Envelope Thread) (record : LogRecord)
  /-- `queue_.pop()` returns the record to the worker. -/
  | taken (record : LogRecord)
  /-- `enqueued_` is incremented and `enqueue` returns. -/
  | enqueued (envelope : Envelope Thread)
  | submitted (envelope : Envelope Thread)
  | destroyed (envelope : Envelope Thread)
  | written
  | shutdownCalled (thread : Thread)
  | shutdownReturned (thread : Thread)
  | terminated
  deriving DecidableEq

/-- The flag is handed to the free list's step, if the step is one. -/
inductive EngineAction (Thread : Type)
  | enqueue (thread : Thread)
  | shutdown (thread : Thread)
  | client (thread : Thread) (spurious : Bool)
  | worker (id : Nat) (spurious : Bool)

variable {list : FreeListSteps LogRecord} {Thread : Type}

namespace LogEngine

def initial : LogEngine list Thread where
  run := false
  generation := 0
  freelist := list.empty
  queue := .initial
  worker := none
  dropped := 0
  enqueued := 0
  written := 0
  stored := fun _ => none
  clients := fun _ => .idle
  workers := fun _ => .absent
  spawned := 0
  returned := fun _ => 0
  terminated := false

variable [DecidableEq Thread] (state : LogEngine list Thread)

/-- The envelope of the thread's current `enqueue` call. -/
def envelope (thread : Thread) : Envelope Thread := ⟨thread, state.returned thread⟩

def goto (thread : Thread) (pc : ClientPc list) : LogEngine list Thread :=
  { state with clients := Function.update state.clients thread pc }

def workerGoto (id : Nat) (pc : WorkerPc list) : LogEngine list Thread :=
  { state with workers := Function.update state.workers id pc }

def finish (thread : Thread) : LogEngine list Thread :=
  { state with
    clients := Function.update state.clients thread .idle
    returned := Function.update state.returned thread (state.returned thread + 1) }

/-- The `index`-th push of the loop in `init_pool_and_queue`, or what follows the loop. -/
def fillFrom (poolSize : Nat) (index : Nat) : ClientPc list :=
  if index < poolSize then .fillPool index (list.push ⟨state.generation, index⟩) else .startWorker

def pushEvent (envelope : Envelope Thread) : PushPc LogRecord → List (EngineEvent Thread)
  | .exchangeTail record => [.queued envelope record]
  | _ => []

def clientStep (poolSize : Nat) (thread : Thread) (spurious : Bool) :
    Option (LogEngine list Thread × List (EngineEvent Thread)) :=
  match state.clients thread with
  | .idle => none
  | .ensureRunning =>
      if state.run then some (state.goto thread (.acquire list.pop), [])
      else some ({ state with run := true }.goto thread .allocatePool, [])
  | .allocatePool =>
      let state' := { state with generation := state.generation + 1 }
      some (state'.goto thread (state'.fillFrom poolSize 0), [])
  | .fillPool index pc =>
      match list.pushStep state.freelist pc spurious with
      | (freelist, some pc) => some ({ state with freelist }.goto thread (.fillPool index pc), [])
      | (freelist, none) =>
          some ({ state with freelist }.goto thread (state.fillFrom poolSize (index + 1)), [])
  | .startWorker =>
      let state' := { state with
        workers := Function.update state.workers state.spawned (.loadRun none)
        spawned := state.spawned + 1 }
      some (state'.goto thread (.assignWorker state.spawned), [])
  | .assignWorker id =>
      match state.worker with
      | some _ => some ({ state with terminated := true }, [.terminated])
      | none => some ({ state with worker := some id }.goto thread (.acquire list.pop), [])
  | .acquire pc =>
      match list.popStep state.freelist pc spurious with
      | (freelist, .inl pc) => some ({ state with freelist }.goto thread (.acquire pc), [])
      | (freelist, .inr none) => some ({ state with freelist }.goto thread .countDropped, [])
      | (freelist, .inr (some record)) =>
          some ({ state with freelist }.goto thread (.construct record), [])
  | .countDropped =>
      some ({ state with dropped := state.dropped + 1 }.finish thread,
        [.dropped (state.envelope thread)])
  | .construct record =>
      let stored := Function.update state.stored record (some (state.envelope thread))
      some ({ state with stored }.goto thread (.push (.clearNext record)), [])
  | .push pc =>
      match state.queue.pushStep pc with
      | (queue, some later) =>
          some ({ state with queue }.goto thread (.push later),
            pushEvent (state.envelope thread) pc)
      | (queue, none) =>
          some ({ state with queue }.goto thread .countEnqueued,
            pushEvent (state.envelope thread) pc)
  | .countEnqueued =>
      some ({ state with enqueued := state.enqueued + 1 }.finish thread,
        [.enqueued (state.envelope thread)])
  | .stop =>
      if state.run then some ({ state with run := false }.goto thread .join, [])
      else some (state.goto thread .idle, [.shutdownReturned thread])
  | .join =>
      match state.worker with
      | none => some (state.goto thread .idle, [.shutdownReturned thread])
      | some id =>
          match state.workers id with
          | .finished =>
              some ({ state with worker := none }.goto thread .idle, [.shutdownReturned thread])
          | _ => none

/-- After the record is taken: `pending_recycle` goes back first, if there is one. -/
def deliver (drain : Bool) (pending : Option LogRecord) (record : LogRecord) : WorkerPc list :=
  match pending with
  | some old => .recycle drain record old (list.push old)
  | none => .submit drain record

/-- After `queue_.reset()`: the last record goes back. -/
def afterReset : Option LogRecord → WorkerPc list
  | some old => .recycleLast old (list.push old)
  | none => .finished

def workerStep (id : Nat) (spurious : Bool) :
    Option (LogEngine list Thread × List (EngineEvent Thread)) :=
  match state.workers id with
  | .absent | .finished => none
  | .loadRun pending =>
      if state.run then some (state.workerGoto id (.pop false pending .loadNext), [])
      else some (state.workerGoto id (.checkEmpty pending .loadNext), [])
  | .checkEmpty pending pc =>
      match state.queue.emptyStep pc with
      | .inl pc => some (state.workerGoto id (.checkEmpty pending pc), [])
      | .inr drain => some (state.workerGoto id (.pop drain pending .loadNext), [])
  | .pop drain pending pc =>
      match state.queue.popStep pc with
      | (queue, .inl pc) => some ({ state with queue }.workerGoto id (.pop drain pending pc), [])
      | (queue, .inr none) =>
          some ({ state with queue }.workerGoto id
            (if drain then .reset pending .clearStub else .loadRun pending), [])
      | (queue, .inr (some (.record record))) =>
          some ({ state with queue }.workerGoto id (deliver drain pending record), [.taken record])
      -- `static_cast<LogRecord*>` of the stub: no defined behaviour
      | (_, .inr (some .stub)) => none
  | .recycle drain record old pc =>
      match list.pushStep state.freelist pc spurious with
      | (freelist, some pc) =>
          some ({ state with freelist }.workerGoto id (.recycle drain record old pc), [])
      | (freelist, none) => some ({ state with freelist }.workerGoto id (.submit drain record), [])
  | .submit drain record =>
      match state.stored record with
      | some envelope => some (state.workerGoto id (.destroy drain record), [.submitted envelope])
      | none => none
  | .destroy drain record =>
      match state.stored record with
      | some envelope =>
          let stored := Function.update state.stored record none
          some ({ state with stored }.workerGoto id (.countWritten drain record),
            [.destroyed envelope])
      | none => none
  | .countWritten drain record =>
      some ({ state with written := state.written + 1 }.workerGoto id
        (if drain then .pop true (some record) .loadNext else .loadRun (some record)), [.written])
  | .reset pending pc =>
      match state.queue.resetStep pc with
      | (queue, some pc) => some ({ state with queue }.workerGoto id (.reset pending pc), [])
      | (queue, none) =>
          some ({ state with queue }.workerGoto id (afterReset pending), [])
  | .recycleLast old pc =>
      match list.pushStep state.freelist pc spurious with
      | (freelist, some pc) => some ({ state with freelist }.workerGoto id (.recycleLast old pc), [])
      | (freelist, none) => some ({ state with freelist }.workerGoto id .finished, [])

def step (poolSize : Nat) : EngineAction Thread →
    Option (LogEngine list Thread × List (EngineEvent Thread))
  | .enqueue thread =>
      match state.terminated, state.clients thread with
      | false, .idle =>
          some (state.goto thread .ensureRunning, [.enqueueCalled (state.envelope thread)])
      | _, _ => none
  | .shutdown thread =>
      match state.terminated, state.clients thread with
      | false, .idle => some (state.goto thread .stop, [.shutdownCalled thread])
      | _, _ => none
  | .client thread spurious =>
      if state.terminated then none else state.clientStep poolSize thread spurious
  | .worker id spurious => if state.terminated then none else state.workerStep id spurious

end LogEngine

def engineMachine (list : FreeListSteps LogRecord) (Thread : Type) [DecidableEq Thread]
    (poolSize : Nat) :
    EventMachine (LogEngine list Thread) (EngineAction Thread) (EngineEvent Thread) where
  start := .initial
  step := fun state action => state.step poolSize action

/-- `pool_size_` as `init_pool_and_queue` sets it. -/
def kPoolSize : Nat := 1024

end MyServer
