import MyServer.LogEngineCore

/-!
What one step of a client or of a worker can be. Each constructor is one transition of
`enqueue`, `stop_worker` or `worker_loop` together with what was read to take it.
-/

namespace MyServer

namespace LogEngine

variable {list : FreeListSteps LogRecord} {Thread : Type} [DecidableEq Thread]

inductive ClientMove (poolSize : Nat) (state : LogEngine list Thread) (thread : Thread) :
    LogEngine list Thread → List (EngineEvent Thread) → Prop
  | alreadyRunning (here : state.clients thread = .ensureRunning) (up : state.run = true) :
      ClientMove poolSize state thread (state.goto thread (.acquire list.pop)) []
  | starts (here : state.clients thread = .ensureRunning) (down : state.run = false) :
      ClientMove poolSize state thread ({ state with run := true }.goto thread .allocatePool) []
  | allocates (here : state.clients thread = .allocatePool) :
      ClientMove poolSize state thread
        ({ state with generation := state.generation + 1 }.goto thread
          ({ state with generation := state.generation + 1 }.fillFrom poolSize 0)) []
  | fills {index pc spurious freelist later}
      (here : state.clients thread = .fillPool index pc)
      (ran : list.pushStep state.freelist pc spurious = (freelist, some later)) :
      ClientMove poolSize state thread ({ state with freelist }.goto thread (.fillPool index later)) []
  | filled {index pc spurious freelist}
      (here : state.clients thread = .fillPool index pc)
      (ran : list.pushStep state.freelist pc spurious = (freelist, none)) :
      ClientMove poolSize state thread
        ({ state with freelist }.goto thread (state.fillFrom poolSize (index + 1))) []
  | spawns (here : state.clients thread = .startWorker) :
      ClientMove poolSize state thread
        ({ state with
            workers := Function.update state.workers state.spawned (.loadRun none)
            spawned := state.spawned + 1 }.goto thread (.assignWorker state.spawned)) []
  | assigns {id} (here : state.clients thread = .assignWorker id) (free : state.worker = none) :
      ClientMove poolSize state thread
        ({ state with worker := some id }.goto thread (.acquire list.pop)) []
  | terminates {id other} (here : state.clients thread = .assignWorker id)
      (taken : state.worker = some other) :
      ClientMove poolSize state thread { state with terminated := true } [.terminated]
  | acquires {pc spurious freelist later} (here : state.clients thread = .acquire pc)
      (ran : list.popStep state.freelist pc spurious = (freelist, .inl later)) :
      ClientMove poolSize state thread ({ state with freelist }.goto thread (.acquire later)) []
  | misses {pc spurious freelist} (here : state.clients thread = .acquire pc)
      (ran : list.popStep state.freelist pc spurious = (freelist, .inr none)) :
      ClientMove poolSize state thread ({ state with freelist }.goto thread .countDropped) []
  | obtains {pc spurious freelist record} (here : state.clients thread = .acquire pc)
      (ran : list.popStep state.freelist pc spurious = (freelist, .inr (some record))) :
      ClientMove poolSize state thread ({ state with freelist }.goto thread (.construct record)) []
  | drops (here : state.clients thread = .countDropped) :
      ClientMove poolSize state thread
        ({ state with dropped := state.dropped + 1 }.finish thread)
        [.dropped (state.envelope thread)]
  | constructs {record} (here : state.clients thread = .construct record) :
      ClientMove poolSize state thread
        ({ state with
            stored := Function.update state.stored record (some (state.envelope thread)) }.goto
          thread (.push (.clearNext record))) []
  | clears {record} (here : state.clients thread = .push (.clearNext record)) :
      ClientMove poolSize state thread
        ({ state with queue := (state.queue.pushStep (.clearNext record)).1 }.goto thread
          (.push (.exchangeTail record))) []
  | exchanges {record} (here : state.clients thread = .push (.exchangeTail record)) :
      ClientMove poolSize state thread
        ({ state with queue := (state.queue.pushStep (.exchangeTail record)).1 }.goto thread
          (.push (.linkPrev record state.queue.tail)))
        [.queued (state.envelope thread) record]
  | links {record prev} (here : state.clients thread = .push (.linkPrev record prev)) :
      ClientMove poolSize state thread
        ({ state with queue := (state.queue.pushStep (.linkPrev record prev)).1 }.goto thread
          .countEnqueued) []
  | counts (here : state.clients thread = .countEnqueued) :
      ClientMove poolSize state thread
        ({ state with enqueued := state.enqueued + 1 }.finish thread)
        [.enqueued (state.envelope thread)]
  | stops (here : state.clients thread = .stop) (up : state.run = true) :
      ClientMove poolSize state thread ({ state with run := false }.goto thread .join) []
  | stoppedBefore (here : state.clients thread = .stop) (down : state.run = false) :
      ClientMove poolSize state thread (state.goto thread .idle) [.shutdownReturned thread]
  | notJoinable (here : state.clients thread = .join) (free : state.worker = none) :
      ClientMove poolSize state thread (state.goto thread .idle) [.shutdownReturned thread]
  | joins {id} (here : state.clients thread = .join) (mine : state.worker = some id)
      (done : state.workers id = .finished) :
      ClientMove poolSize state thread ({ state with worker := none }.goto thread .idle)
        [.shutdownReturned thread]

theorem client_move {poolSize : Nat} {state next : LogEngine list Thread} {thread : Thread}
    {spurious : Bool} {events : List (EngineEvent Thread)}
    (stepped : state.clientStep poolSize thread spurious = some (next, events)) :
    ClientMove poolSize state thread next events := by
  unfold clientStep at stepped
  split at stepped
  · simp at stepped
  · rename_i here
    split at stepped
    · rename_i up
      cases stepped
      exact .alreadyRunning here up
    · rename_i up
      cases stepped
      exact .starts here (by simpa using up)
  · rename_i here
    cases stepped
    exact .allocates here
  · rename_i index pc here
    split at stepped
    · rename_i freelist later ran
      cases stepped
      exact .fills here ran
    · rename_i freelist ran
      cases stepped
      exact .filled here ran
  · rename_i here
    cases stepped
    exact .spawns here
  · rename_i id here
    split at stepped
    · rename_i other taken
      cases stepped
      exact .terminates here taken
    · rename_i free
      cases stepped
      exact .assigns here free
  · rename_i pc here
    split at stepped
    · rename_i freelist later ran
      cases stepped
      exact .acquires here ran
    · rename_i freelist ran
      cases stepped
      exact .misses here ran
    · rename_i freelist record ran
      cases stepped
      exact .obtains here ran
  · rename_i here
    cases stepped
    exact .drops here
  · rename_i record here
    cases stepped
    exact .constructs here
  · rename_i pc here
    cases pc with
    | clearNext record =>
        cases stepped
        exact .clears here
    | exchangeTail record =>
        cases stepped
        exact .exchanges here
    | linkPrev record prev =>
        cases stepped
        exact .links here
  · rename_i here
    cases stepped
    exact .counts here
  · rename_i here
    split at stepped
    · rename_i up
      cases stepped
      exact .stops here up
    · rename_i up
      cases stepped
      exact .stoppedBefore here (by simpa using up)
  · rename_i here
    split at stepped
    · rename_i free
      cases stepped
      exact .notJoinable here free
    · rename_i id mine
      split at stepped
      · rename_i done
        cases stepped
        exact .joins here mine done
      · simp at stepped

inductive WorkerMove (state : LogEngine list Thread) (id : Nat) :
    LogEngine list Thread → List (EngineEvent Thread) → Prop
  | keepsRunning {pending} (here : state.workers id = .loadRun pending) (up : state.run = true) :
      WorkerMove state id (state.workerGoto id (.pop false pending .loadNext)) []
  | seesStop {pending} (here : state.workers id = .loadRun pending) (down : state.run = false) :
      WorkerMove state id (state.workerGoto id (.checkEmpty pending .loadNext)) []
  | checks {pending pc later} (here : state.workers id = .checkEmpty pending pc)
      (ran : state.queue.emptyStep pc = .inl later) :
      WorkerMove state id (state.workerGoto id (.checkEmpty pending later)) []
  | checked {pending pc drain} (here : state.workers id = .checkEmpty pending pc)
      (ran : state.queue.emptyStep pc = .inr drain) :
      WorkerMove state id (state.workerGoto id (.pop drain pending .loadNext)) []
  | pops {drain pending pc queue later} (here : state.workers id = .pop drain pending pc)
      (ran : state.queue.popStep pc = (queue, .inl later)) :
      WorkerMove state id ({ state with queue }.workerGoto id (.pop drain pending later)) []
  | sleeps {pending pc queue} (here : state.workers id = .pop false pending pc)
      (ran : state.queue.popStep pc = (queue, .inr none)) :
      WorkerMove state id ({ state with queue }.workerGoto id (.loadRun pending)) []
  | drained {pending pc queue} (here : state.workers id = .pop true pending pc)
      (ran : state.queue.popStep pc = (queue, .inr none)) :
      WorkerMove state id ({ state with queue }.workerGoto id (.reset pending .clearStub)) []
  | takes {drain pending pc queue record} (here : state.workers id = .pop drain pending pc)
      (ran : state.queue.popStep pc = (queue, .inr (some (.record record)))) :
      WorkerMove state id ({ state with queue }.workerGoto id (deliver drain pending record))
        [.taken record]
  | recycles {drain record old pc spurious freelist later}
      (here : state.workers id = .recycle drain record old pc)
      (ran : list.pushStep state.freelist pc spurious = (freelist, some later)) :
      WorkerMove state id ({ state with freelist }.workerGoto id (.recycle drain record old later)) []
  | recycled {drain record old pc spurious freelist}
      (here : state.workers id = .recycle drain record old pc)
      (ran : list.pushStep state.freelist pc spurious = (freelist, none)) :
      WorkerMove state id ({ state with freelist }.workerGoto id (.submit drain record)) []
  | submits {drain record envelope} (here : state.workers id = .submit drain record)
      (read : state.stored record = some envelope) :
      WorkerMove state id (state.workerGoto id (.destroy drain record)) [.submitted envelope]
  | destroys {drain record envelope} (here : state.workers id = .destroy drain record)
      (read : state.stored record = some envelope) :
      WorkerMove state id
        ({ state with stored := Function.update state.stored record none }.workerGoto id
          (.countWritten drain record)) [.destroyed envelope]
  | written {drain record} (here : state.workers id = .countWritten drain record) :
      WorkerMove state id
        ({ state with written := state.written + 1 }.workerGoto id
          (if drain then .pop true (some record) .loadNext else .loadRun (some record))) [.written]
  | resets {pending pc queue later} (here : state.workers id = .reset pending pc)
      (ran : state.queue.resetStep pc = (queue, some later)) :
      WorkerMove state id ({ state with queue }.workerGoto id (.reset pending later)) []
  | wasReset {pending pc queue} (here : state.workers id = .reset pending pc)
      (ran : state.queue.resetStep pc = (queue, none)) :
      WorkerMove state id
        ({ state with queue }.workerGoto id (afterReset pending)) []
  | recyclesLast {old pc spurious freelist later} (here : state.workers id = .recycleLast old pc)
      (ran : list.pushStep state.freelist pc spurious = (freelist, some later)) :
      WorkerMove state id ({ state with freelist }.workerGoto id (.recycleLast old later)) []
  | finishes {old pc spurious freelist} (here : state.workers id = .recycleLast old pc)
      (ran : list.pushStep state.freelist pc spurious = (freelist, none)) :
      WorkerMove state id ({ state with freelist }.workerGoto id .finished) []

omit [DecidableEq Thread] in
theorem worker_move {state next : LogEngine list Thread} {id : Nat}
    {spurious : Bool} {events : List (EngineEvent Thread)}
    (stepped : state.workerStep id spurious = some (next, events)) :
    WorkerMove state id next events := by
  unfold workerStep at stepped
  split at stepped
  · simp at stepped
  · simp at stepped
  · rename_i pending here
    split at stepped
    · rename_i up
      cases stepped
      exact .keepsRunning here up
    · rename_i up
      cases stepped
      exact .seesStop here (by simpa using up)
  · rename_i pending pc here
    split at stepped
    · rename_i later ran
      cases stepped
      exact .checks here ran
    · rename_i drain ran
      cases stepped
      exact .checked here ran
  · rename_i drain pending pc here
    split at stepped
    · rename_i queue later ran
      cases stepped
      exact .pops here ran
    · rename_i queue ran
      cases drain
      · cases stepped
        exact .sleeps here ran
      · cases stepped
        exact .drained here ran
    · rename_i queue record ran
      cases stepped
      exact .takes here ran
    · simp at stepped
  · rename_i drain record old pc here
    split at stepped
    · rename_i freelist later ran
      cases stepped
      exact .recycles here ran
    · rename_i freelist ran
      cases stepped
      exact .recycled here ran
  · rename_i drain record here
    split at stepped
    · rename_i envelope read
      cases stepped
      exact .submits here read
    · simp at stepped
  · rename_i drain record here
    split at stepped
    · rename_i envelope read
      cases stepped
      exact .destroys here read
    · simp at stepped
  · rename_i drain record here
    cases stepped
    exact .written here
  · rename_i pending pc here
    split at stepped
    · rename_i queue later ran
      cases stepped
      exact .resets here ran
    · rename_i queue ran
      cases stepped
      exact .wasReset here ran
  · rename_i old pc here
    split at stepped
    · rename_i freelist later ran
      cases stepped
      exact .recyclesLast here ran
    · rename_i freelist ran
      cases stepped
      exact .finishes here ran

section Frames

variable {state next : LogEngine list Thread} {id : Nat} {events : List (EngineEvent Thread)}

omit [DecidableEq Thread] in
theorem WorkerMove.clients_same (moved : WorkerMove state id next events) :
    next.clients = state.clients := by
  cases moved <;> rfl

omit [DecidableEq Thread] in
theorem WorkerMove.run_same (moved : WorkerMove state id next events) : next.run = state.run := by
  cases moved <;> rfl

omit [DecidableEq Thread] in
theorem WorkerMove.generation_same (moved : WorkerMove state id next events) :
    next.generation = state.generation := by
  cases moved <;> rfl

omit [DecidableEq Thread] in
theorem WorkerMove.worker_same (moved : WorkerMove state id next events) :
    next.worker = state.worker := by
  cases moved <;> rfl

omit [DecidableEq Thread] in
theorem WorkerMove.spawned_same (moved : WorkerMove state id next events) :
    next.spawned = state.spawned := by
  cases moved <;> rfl

omit [DecidableEq Thread] in
theorem WorkerMove.others_same (moved : WorkerMove state id next events) (other : Nat)
    (different : other ≠ id) : next.workers other = state.workers other := by
  cases moved <;> exact Function.update_of_ne different _ _

theorem ClientMove.others_same {poolSize : Nat} {thread : Thread}
    (moved : ClientMove poolSize state thread next events) (other : Thread)
    (different : other ≠ thread) : next.clients other = state.clients other := by
  cases moved <;> first | exact Function.update_of_ne different _ _ | rfl

end Frames

inductive Move (poolSize : Nat) (state : LogEngine list Thread) :
    EngineAction Thread → LogEngine list Thread → List (EngineEvent Thread) → Prop
  | enqueue {thread} (here : state.clients thread = .idle) :
      Move poolSize state (.enqueue thread) (state.goto thread .ensureRunning)
        [.enqueueCalled (state.envelope thread)]
  | shutdown {thread} (here : state.clients thread = .idle) :
      Move poolSize state (.shutdown thread) (state.goto thread .stop) [.shutdownCalled thread]
  | client {thread spurious next events} (moved : ClientMove poolSize state thread next events) :
      Move poolSize state (.client thread spurious) next events
  | worker {id spurious next events} (moved : WorkerMove state id next events) :
      Move poolSize state (.worker id spurious) next events

theorem step_move {poolSize : Nat} {state next : LogEngine list Thread}
    {action : EngineAction Thread} {events : List (EngineEvent Thread)}
    (stepped : state.step poolSize action = some (next, events)) :
    state.terminated = false ∧ Move poolSize state action next events := by
  unfold step at stepped
  split at stepped
  · split at stepped
    · rename_i alive here
      cases stepped
      exact ⟨alive, .enqueue here⟩
    · simp at stepped
  · split at stepped
    · rename_i alive here
      cases stepped
      exact ⟨alive, .shutdown here⟩
    · simp at stepped
  · split at stepped
    · simp at stepped
    · rename_i alive
      exact ⟨by simpa using alive, .client (client_move stepped)⟩
  · split at stepped
    · simp at stepped
    · rename_i alive
      exact ⟨by simpa using alive, .worker (worker_move stepped)⟩

end LogEngine

end MyServer
