import MyServer.LogEngineStartStop
import MyServer.RankedRuns

/-!
Calls of the engine end. An `enqueue` waits for nobody: whatever the other threads do, it
returns after a bounded number of its own steps. A `shutdown` that has stopped an orderly
engine waits for the worker, which has a bounded number of steps left.
-/

namespace MyServer

variable {Thread : Type}

/-! `enqueue` alone. -/

def ClientPc.inEnqueue : AtomicClient → Bool
  | .idle | .stop | .join => false
  | _ => true

def ClientPc.enqueueRank (poolSize : Nat) : AtomicClient → Nat
  | .ensureRunning => poolSize + 11
  | .allocatePool => poolSize + 10
  | .fillPool index _ => poolSize - index + 9
  | .startWorker => 8
  | .assignWorker _ => 7
  | .acquire _ => 6
  | .construct _ => 5
  | .push (.clearNext _) => 4
  | .push (.exchangeTail _) => 3
  | .push (.linkPrev _ _) => 2
  | .countDropped | .countEnqueued => 1
  | .idle | .stop | .join => 0

theorem ClientPc.enqueueRank_le {poolSize : Nat} (pc : AtomicClient) :
    pc.enqueueRank poolSize ≤ poolSize + 11 := by
  cases pc with
  | push pc => cases pc <;> simp [ClientPc.enqueueRank]
  | _ =>
      simp only [ClientPc.enqueueRank]
      omega

namespace EngineAction

def isStepOf [DecidableEq Thread] (thread : Thread) : EngineAction Thread → Bool
  | .client other _ => other = thread
  | _ => false

end EngineAction

namespace LogEngine

variable [DecidableEq Thread] {poolSize : Nat} {thread : Thread}
variable {state next : AtomicEngine Thread} {trace events : List (EngineEvent Thread)}

omit [DecidableEq Thread] in
theorem fillFrom_rank (poolSize : Nat) (state : AtomicEngine Thread) (index : Nat) :
    ClientPc.enqueueRank poolSize (state.fillFrom poolSize index) ≤ poolSize - index + 9 ∧
      ClientPc.enqueueRank poolSize (state.fillFrom poolSize (index + 1)) < poolSize - index + 9 := by
  unfold fillFrom
  constructor
  · split
    · exact Nat.le_refl _
    · simp only [ClientPc.enqueueRank]
      omega
  · split <;> simp only [ClientPc.enqueueRank] <;> omega

def stepsLeft (poolSize : Nat) (state : AtomicEngine Thread) (thread : Thread) : Nat :=
  if state.terminated then 0 else (state.clients thread).enqueueRank poolSize

omit [DecidableEq Thread] in
theorem stepsLeft_le (poolSize : Nat) (state : AtomicEngine Thread) (thread : Thread) :
    state.stepsLeft poolSize thread ≤ (state.clients thread).enqueueRank poolSize := by
  unfold stepsLeft
  split
  · exact Nat.zero_le _
  · exact Nat.le_refl _

/-- Every step of its own brings a thread nearer to the end of its `enqueue`. -/
theorem ClientMove.lowers (moved : ClientMove poolSize state thread next events)
    (calling : (state.clients thread).inEnqueue = true) :
    next.stepsLeft poolSize thread < (state.clients thread).enqueueRank poolSize := by
  have self : ∀ (other : AtomicEngine Thread) pc, (other.goto thread pc).clients thread = pc :=
    fun _ _ => Function.update_self ..
  have done : ∀ other : AtomicEngine Thread, (other.finish thread).clients thread = .idle :=
    fun _ => Function.update_self ..
  have left := next.stepsLeft_le poolSize thread
  cases moved with
  | terminates here taken =>
      rw [here]
      exact Nat.succ_pos 6
  | allocates here =>
      apply Nat.lt_of_le_of_lt left
      rw [self, here]
      have bound := (fillFrom_rank poolSize { state with generation := state.generation + 1 } 0).1
      change _ < poolSize + 10
      omega
  | filled here ran =>
      apply Nat.lt_of_le_of_lt left
      rw [self, here]
      exact (fillFrom_rank poolSize state _).2
  | fills here ran | acquires here ran => cases ran
  | drops here | counts here =>
      apply Nat.lt_of_le_of_lt left
      rw [done, here]
      exact Nat.zero_lt_one
  | stops here | stoppedBefore here | notJoinable here | joins here =>
      rw [here] at calling
      cases calling
  | alreadyRunning here | starts here | spawns here | assigns here | misses here | obtains here
  | constructs here | clears here | exchanges here | links here =>
      apply Nat.lt_of_le_of_lt left
      rw [self, here]
      simp only [ClientPc.enqueueRank]
      omega

def staysInEnqueue (thread : Thread) (_ : List (EngineEvent Thread)) (state : AtomicEngine Thread)
    (_ : EngineAction Thread) : Prop :=
  (state.clients thread).inEnqueue = true

theorem enqueue_ranked (thread : Thread) :
    (engineMachine (atomicFreeList LogRecord) Thread poolSize).Ranked (staysInEnqueue thread)
      (EngineAction.isStepOf thread) (fun _ _ => True)
      (fun _ state => state.stepsLeft poolSize thread) where
  kept := fun _ _ _ _ _ _ _ _ => trivial
  lowered := by
    intro trace state action next events _ calling stepped
    obtain ⟨alive, moved⟩ := step_move stepped
    have busy : state.clients thread ≠ .idle := by
      intro idle
      rw [staysInEnqueue, idle] at calling
      cases calling
    have before : state.stepsLeft poolSize thread =
        (state.clients thread).enqueueRank poolSize := by simp [stepsLeft, alive]
    rw [before]
    cases moved with
    | @enqueue other here | @shutdown other here =>
        have different : thread ≠ other := fun same => busy (same ▸ here)
        refine Nat.le_trans (stepsLeft_le ..) ?_
        simp [goto, different]
    | @client other spurious next events moved =>
        by_cases same : other = thread
        · subst same
          have lower := moved.lowers calling
          simp only [EngineAction.isStepOf, decide_true, if_true]
          omega
        · refine Nat.le_trans (Nat.add_le_add_right (stepsLeft_le ..) _) ?_
          rw [moved.others_same thread (Ne.symm same)]
          simp [EngineAction.isStepOf, same]
    | worker moved =>
        refine Nat.le_trans (stepsLeft_le ..) ?_
        rw [moved.clients_same]

/-- Nothing blocks a thread in `enqueue`. -/
theorem client_steps (state : AtomicEngine Thread) (thread : Thread) (spurious : Bool)
    (calling : (state.clients thread).inEnqueue = true) :
    (state.clientStep poolSize thread spurious).isSome = true := by
  unfold clientStep
  cases here : state.clients thread with
  | idle | stop | join =>
      rw [here] at calling
      cases calling
  | ensureRunning => cases up : state.run <;> rfl
  | assignWorker id => cases free : state.worker <;> rfl
  | acquire pc => cases stack : state.freelist <;> rfl
  | push pc => cases pc <;> rfl
  | allocatePool | fillPool | startWorker | countDropped | construct | countEnqueued => rfl

/-- Whatever the other threads and the workers do, and whether or not the engine is being shut
down, a thread in `enqueue` can take its next step and has at most `poolSize + 11` to take. -/
theorem enqueue_wait_free (state : AtomicEngine Thread) (alive : state.terminated = false)
    (calling : (state.clients thread).inEnqueue = true) :
    (∀ spurious, (state.step poolSize (.client thread spurious)).isSome = true) ∧
    ∀ trace count segment last,
      (engineMachine (atomicFreeList LogRecord) Thread poolSize).Counted (staysInEnqueue thread)
        (EngineAction.isStepOf thread) trace state count segment last →
      count ≤ poolSize + 11 := by
  constructor
  · intro spurious
    have steps : state.step poolSize (.client thread spurious) =
        state.clientStep poolSize thread spurious := by simp [step, alive]
    rw [steps]
    exact state.client_steps thread spurious calling
  · intro trace count segment last run
    have paid := (enqueue_ranked thread).count_le run trivial
    exact Nat.le_trans paid (Nat.le_trans (stepsLeft_le ..) (ClientPc.enqueueRank_le _))

/-! `shutdown` and the worker it joins. -/

/-- What the worker still has to do besides submitting the waiting records, if it never finds
the queue in the middle of a push; `more` says whether a record waits. -/
def workerRank (more : Bool) : AtomicWorker → Nat
  | .absent | .finished => 0
  | .recycleLast _ _ => 1
  | .reset _ .setTail => 2
  | .reset _ .setHead => 3
  | .reset _ .clearStub => 4
  | .pop _ _ (.advance _) => 3
  | .pop _ _ (.spin _) => 4
  | .pop drain _ (.compareTail _) => if drain then 5 else 10
  | .pop drain _ .loadNext => if drain then 6 else 11
  | .checkEmpty _ (.compareTail _) => if more then 12 else 7
  | .checkEmpty _ .loadNext => if more then 13 else 8
  | .loadRun _ => if more then 14 else 9
  | .countWritten _ _ => 15
  | .destroy _ _ => 16
  | .submit _ _ => 17
  | .recycle _ _ _ _ => 18

theorem workerRank_le (more : Bool) (worker : AtomicWorker) : workerRank more worker ≤ 18 := by
  cases worker with
  | reset _ pc => cases pc <;> simp [workerRank]
  | pop drain _ pc => cases pc <;> cases drain <;> simp [workerRank]
  | checkEmpty _ pc => cases pc <;> cases more <;> simp [workerRank]
  | loadRun => cases more <;> simp [workerRank]
  | _ => simp [workerRank]

/-- The worker spins for a record that waits, and a thread in `worker_` was started. -/
structure WaitOk (trace : List (EngineEvent Thread)) (state : AtomicEngine Thread) : Prop where
  spinning : ∀ drain pending head, state.workers 0 = .pop drain pending (.spin head) →
    waitingRecords trace ≠ []
  assigned : ∀ id, state.worker = some id → state.workers id ≠ .absent
  assigning : ∀ other id, state.clients other = .assignWorker id → state.workers id ≠ .absent

omit [DecidableEq Thread] in
theorem WaitOk.initial : WaitOk [] (LogEngine.initial : AtomicEngine Thread) where
  spinning := by
    intro drain pending head spins
    cases spins
  assigned := by
    intro id assigned
    cases assigned
  assigning := by
    intro other id assigning
    cases assigning

theorem goto_assigning {pc : AtomicClient} {other : Thread} {id : Nat}
    (clients : next.clients = Function.update state.clients thread pc)
    (assigning : next.clients other = .assignWorker id) :
    pc = .assignWorker id ∨ state.clients other = .assignWorker id := by
  rw [clients] at assigning
  rcases of_update (· = ClientPc.assignWorker id) assigning with ⟨_, set⟩ | kept
  · exact .inl set
  · exact .inr kept

theorem WaitOk.client_step (ok : WaitOk trace state) {pc : AtomicClient}
    (clients : next.clients = Function.update state.clients thread pc)
    (workers : next.workers = state.workers)
    (assigned : ∀ id, next.worker = some id → state.workers id ≠ .absent)
    (assigning : ∀ id, pc = .assignWorker id → state.workers id ≠ .absent)
    (waiting : waitingRecords trace ≠ [] → waitingRecords (trace ++ events) ≠ []) :
    WaitOk (trace ++ events) next where
  spinning := by
    rw [workers]
    exact fun drain pending head spins => waiting (ok.spinning drain pending head spins)
  assigned := by rwa [workers]
  assigning := by
    intro other id here
    rw [workers]
    rcases goto_assigning clients here with set | kept
    · exact assigning id set
    · exact ok.assigning other id kept

theorem WaitOk.client (ok : WaitOk trace state) (memory : MemoryOk poolSize trace state)
    (moved : ClientMove poolSize state thread next events) : WaitOk (trace ++ events) next := by
  have still := fun silent : events = [] => show waitingRecords trace ≠ [] →
      waitingRecords (trace ++ events) ≠ [] by simp [silent]
  cases moved with
  | exchanges here =>
      refine ok.client_step rfl rfl ok.assigned (by simp) fun _ => ?_
      rw [waiting_queued memory.taken]
      simp
  | drops here | counts here | stoppedBefore here | notJoinable here =>
      refine ok.client_step rfl rfl ok.assigned (by simp) fun waits => ?_
      rwa [waiting_silent rfl rfl]
  | joins here =>
      refine ok.client_step rfl rfl (by simp [goto]) (by simp) fun waits => ?_
      rwa [waiting_silent rfl rfl]
  | assigns here free =>
      refine ok.client_step rfl rfl ?_ (by simp) (still rfl)
      intro id same
      cases same
      exact ok.assigning _ _ here
  | terminates here taken =>
      refine ⟨fun drain pending head spins => ?_, ok.assigned, ok.assigning⟩
      rw [waiting_silent rfl rfl]
      exact ok.spinning drain pending head spins
  | spawns here =>
      have kept : ∀ id, state.workers id ≠ .absent →
          Function.update state.workers state.spawned (.loadRun none) id ≠ .absent :=
        fun id present => after_update (· ≠ WorkerPc.absent) (by simp) fun _ => present
      refine ⟨fun drain pending head spins => ?_, fun id same => kept id (ok.assigned id same), ?_⟩
      · rw [List.append_nil]
        exact ok.spinning drain pending head
          (before_update (· = WorkerPc.pop drain pending (.spin head)) (by simp) spins)
      · intro other id assigning
        rcases goto_assigning rfl assigning with set | before
        · cases set
          simp [goto]
        · exact kept id (ok.assigning other id before)
  | allocates here | filled here =>
      refine ok.client_step rfl rfl ok.assigned (fun id same => ?_) (still rfl)
      exact (fillFrom_assigns _ _ _ same).elim
  | _ => exact ok.client_step rfl rfl ok.assigned (by simp) (still rfl)

omit [DecidableEq Thread] in
theorem WaitOk.worker_step (ok : WaitOk trace state) {id : Nat}
    (moved : WorkerMove state id next events)
    (spinning : ∀ drain pending head, next.workers 0 = .pop drain pending (.spin head) →
      waitingRecords (trace ++ events) ≠ []) : WaitOk (trace ++ events) next where
  spinning := spinning
  assigned := by
    intro other same
    rw [moved.worker_same] at same
    by_cases here : other = id
    · rw [here]
      exact moved.present_after
    · rw [moved.others_same other here]
      exact ok.assigned other same
  assigning := by
    intro thread other assigning
    rw [moved.clients_same] at assigning
    by_cases here : other = id
    · rw [here]
      exact moved.present_after
    · rw [moved.others_same other here]
      exact ok.assigning thread other assigning

omit [DecidableEq Thread] in
/-- The queue as the worker finds it. -/
theorem MemoryOk.phase (memory : MemoryOk poolSize trace state) {drain : Bool}
    {pending : Option LogRecord} {pc : PopPc LogRecord}
    (here : state.workers 0 = .pop drain pending pc) :
    state.queue.Chain (waitingRecords trace) (fun thread => (state.clients thread).pusher) ∧
      pc.Sound state.queue := by
  obtain ⟨place, placed⟩ := memory.placed
  have phase : QueueWorld.Phase ⟨state.queue, fun thread => (state.clients thread).pusher,
    (state.workers 0).consumer⟩ (waitingRecords trace) := placed.queue.phase
  rw [here] at phase
  exact phase

omit [DecidableEq Thread] in
theorem WaitOk.worker (ok : WaitOk trace state) (memory : MemoryOk poolSize trace state) {id : Nat}
    (moved : WorkerMove state id next events) : WaitOk (trace ++ events) next := by
  refine ok.worker_step moved fun drain pending head spins => ?_
  have present : state.workers id ≠ .absent := by cases moved <;> simp_all
  obtain rfl := memory.worker_zero present
  cases moved with
  | @pops drain' pending' pc queue later here ran =>
      rw [List.append_nil]
      obtain ⟨chain, sound⟩ := memory.phase here
      obtain ⟨_, _, rfl⟩ : drain' = drain ∧ pending' = pending ∧ later = .spin head := by
        simpa [workerGoto] using spins
      cases pc with
      | loadNext => cases loaded : state.queue.next state.queue.head <;>
          simp [MpscQueue.popStep, loaded] at ran
      | compareTail place =>
          obtain rfl : place = state.queue.head := sound
          intro none
          rw [none] at chain
          have tail : state.queue.tail = state.queue.head := by
            simpa [MpscQueue.chain, eq_comm] using chain.tailLast
          simp [MpscQueue.popStep, tail] at ran
      | spin place => exact ok.spinning _ _ _ here
      | advance next => simp [MpscQueue.popStep] at ran
  | @takes drain' pending' => cases pending' <;> simp [workerGoto, deliver] at spins
  | @written drain' => cases drain' <;> simp [workerGoto] at spins
  | @wasReset pending' => cases pending' <;> simp [workerGoto, afterReset] at spins
  | _ => simp [workerGoto] at spins

theorem WaitOk.step (ok : WaitOk trace state) (memory : MemoryOk poolSize trace state)
    {action : EngineAction Thread} (moved : Move poolSize state action next events) :
    WaitOk (trace ++ events) next := by
  cases moved with
  | enqueue here | shutdown here =>
      refine ok.client_step rfl rfl ok.assigned (by simp) fun waits => ?_
      rwa [waiting_silent rfl rfl]
  | client moved => exact ok.client memory moved
  | worker moved => exact ok.worker memory moved

/-! The end of an orderly run. -/

/-- The engine is stopped, and only the given thread may still be in its `shutdown`. -/
structure Stopping [Fintype Thread] (poolSize : Nat) (thread : Thread)
    (trace : List (EngineEvent Thread)) (state : AtomicEngine Thread) : Prop where
  engine : EngineOk poolSize trace state
  waits : WaitOk trace state
  called : trace.any EngineEvent.isShutdownCalled = true
  down : state.run = false
  alive : state.terminated = false
  others : ∀ other, other ≠ thread → state.clients other = .idle
  mine : state.clients thread = .join ∨
    state.clients thread = .idle ∧ .shutdownReturned thread ∈ trace

omit [DecidableEq Thread] in
theorem WorkerMove.terminated_same {id : Nat} (moved : WorkerMove state id next events) :
    next.terminated = state.terminated := by
  cases moved <;> rfl

theorem ClientMove.joined (moved : ClientMove poolSize state thread next events)
    (joins : state.clients thread = .join) :
    next.run = state.run ∧ next.terminated = state.terminated ∧ next.workers = state.workers ∧
      next.clients thread = .idle ∧ events = [.shutdownReturned thread] := by
  cases moved with
  | notJoinable | joins => simp [goto]
  | _ => simp_all

variable [Fintype Thread]

theorem EngineOk.step (ok : EngineOk poolSize trace state) {action : EngineAction Thread}
    (permitted : orderly trace state action) (moved : Move poolSize state action next events) :
    EngineOk poolSize (trace ++ events) next :=
  ⟨ok.memory.step (ok.life.calm ok.memory action) moved, ok.delivery.step ok.memory moved,
    ok.calls.step moved, ok.life.step ok.memory permitted moved⟩

/-- A stopped engine is left to its worker and to the thread that joins it. -/
theorem Stopping.acts (stopping : Stopping poolSize thread trace state)
    {action : EngineAction Thread} (permitted : orderly trace state action)
    (moved : Move poolSize state action next events) :
    (∃ spurious, action = .client thread spurious ∧ state.clients thread = .join ∧
        ClientMove poolSize state thread next events) ∨
      ∃ spurious, action = .worker 0 spurious ∧ WorkerMove state 0 next events := by
  cases moved with
  | enqueue here =>
      have early : trace.any EngineEvent.isShutdownCalled = false := permitted
      rw [stopping.called] at early
      cases early
  | shutdown here =>
      have early : trace.any EngineEvent.isShutdownCalled = false := permitted.1
      rw [stopping.called] at early
      cases early
  | @client other spurious _ _ moved =>
      have busy : state.clients other ≠ .idle := by cases moved <;> simp_all
      obtain rfl : other = thread := by
        by_contra different
        exact busy (stopping.others other different)
      refine .inl ⟨spurious, rfl, ?_, moved⟩
      rcases stopping.mine with joins | ⟨idle, _⟩
      · exact joins
      · exact absurd idle busy
  | @worker id spurious _ _ moved =>
      have present : state.workers id ≠ .absent := by cases moved <;> simp_all
      obtain rfl := stopping.engine.memory.worker_zero present
      exact .inr ⟨spurious, rfl, moved⟩

theorem Stopping.step (stopping : Stopping poolSize thread trace state)
    {action : EngineAction Thread} (permitted : orderly trace state action)
    (moved : Move poolSize state action next events) :
    Stopping poolSize thread (trace ++ events) next := by
  have engine := stopping.engine.step permitted moved
  have waits := stopping.waits.step stopping.engine.memory moved
  have called : (trace ++ events).any EngineEvent.isShutdownCalled = true := by
    simp [List.any_append, stopping.called]
  rcases stopping.acts permitted moved with ⟨_, _, joins, returns⟩ | ⟨_, _, works⟩
  · obtain ⟨run, alive, _, idle, rfl⟩ := returns.joined joins
    refine ⟨engine, waits, called, run.trans stopping.down, alive.trans stopping.alive,
      fun other different => ?_, .inr ⟨idle, by simp⟩⟩
    rw [returns.others_same other different]
    exact stopping.others other different
  · refine ⟨engine, waits, called, ?_, ?_, fun other different => ?_, ?_⟩
    · rw [works.run_same]
      exact stopping.down
    · rw [works.terminated_same]
      exact stopping.alive
    · rw [works.clients_same]
      exact stopping.others other different
    · rw [works.clients_same]
      exact stopping.mine.imp_right fun ⟨idle, returned⟩ =>
        ⟨idle, List.mem_append_left _ returned⟩

omit [DecidableEq Thread] in
theorem Stopping.no_pusher (stopping : Stopping poolSize thread trace state) (other : Thread) :
    (state.clients other).pusher = none := by
  by_cases same : other = thread
  · rw [same]
    rcases stopping.mine with joins | ⟨idle, _⟩
    · rw [joins]; rfl
    · rw [idle]; rfl
  · rw [stopping.others other same]
    rfl

omit [DecidableEq Thread] in
/-- With no push under way the dummy's successor is there as soon as a record waits. -/
theorem Stopping.linked (stopping : Stopping poolSize thread trace state)
    (chain : state.queue.Chain (waitingRecords trace) fun other => (state.clients other).pusher)
    (none : state.queue.next state.queue.head = none) : waitingRecords trace = [] := by
  cases waiting : waitingRecords trace with
  | nil => rfl
  | cons record rest =>
      rw [waiting] at chain
      have adjacent : (state.queue.chain (record :: rest)).Adjacent state.queue.head
          (.record record) := by simp [MpscQueue.chain, List.adjacent_cons]
      rcases chain.linked _ _ adjacent with stored | ⟨producer, pushing⟩
      · rw [none] at stored
        cases stored
      · rw [stopping.no_pusher producer] at pushing
        cases pushing

omit [DecidableEq Thread] [Fintype Thread] in
theorem chain_front {queue : MpscQueue LogRecord} {waiting : List LogRecord}
    {pushers : Thread → Option (PushPc LogRecord)} (chain : queue.Chain waiting pushers)
    (none : waiting = []) : queue.tail = queue.head ∧ queue.next queue.head = Option.none := by
  subst none
  have tail : queue.tail = queue.head := by
    simpa [MpscQueue.chain, eq_comm] using chain.tailLast
  exact ⟨tail, tail ▸ chain.tailNull⟩

omit [DecidableEq Thread] [Fintype Thread] in
theorem MemoryOk.emptyPhase (memory : MemoryOk poolSize trace state) {pending : Option LogRecord}
    {pc : EmptyPc LogRecord} (here : state.workers 0 = .checkEmpty pending pc) :
    state.queue.Chain (waitingRecords trace) (fun thread => (state.clients thread).pusher) ∧
      pc.Sound state.queue := by
  obtain ⟨place, placed⟩ := memory.placed
  have phase : QueueWorld.Phase ⟨state.queue, fun thread => (state.clients thread).pusher,
    (state.workers 0).consumer⟩ (waitingRecords trace) := placed.queue.phase
  rw [here] at phase
  exact phase

omit [DecidableEq Thread] in
/-- A step of `pop` that does not return. -/
theorem Stopping.pops_lower (stopping : Stopping poolSize thread trace state) {drain : Bool}
    {pending : Option LogRecord} {pc later : PopPc LogRecord} {queue : MpscQueue LogRecord}
    (here : state.workers 0 = .pop drain pending pc)
    (ran : state.queue.popStep pc = (queue, .inl later)) (more : Bool) :
    workerRank more (.pop drain pending later) < workerRank more (.pop drain pending pc) := by
  obtain ⟨chain, sound⟩ := stopping.engine.memory.phase here
  cases pc with
  | loadNext =>
      cases loaded : state.queue.next state.queue.head with
      | none =>
          obtain rfl : .compareTail state.queue.head = later := by
            simpa [MpscQueue.popStep, loaded] using congrArg Prod.snd ran
          cases drain <;> simp [workerRank]
      | some successor =>
          obtain rfl : .advance successor = later := by
            simpa [MpscQueue.popStep, loaded] using congrArg Prod.snd ran
          cases drain <;> simp [workerRank]
  | compareTail place =>
      by_cases same : state.queue.tail = place
      · simp [MpscQueue.popStep, same] at ran
      · obtain rfl : .spin place = later := by
          simpa [MpscQueue.popStep, same] using congrArg Prod.snd ran
        cases drain <;> simp [workerRank]
  | spin place =>
      obtain rfl : place = state.queue.head := sound
      cases loaded : state.queue.next state.queue.head with
      | none => exact absurd (stopping.linked chain loaded) (stopping.waits.spinning _ _ _ here)
      | some successor =>
          obtain rfl : .advance successor = later := by
            simpa [MpscQueue.popStep, loaded] using congrArg Prod.snd ran
          cases drain <;> simp [workerRank]
  | advance successor => simp [MpscQueue.popStep] at ran

omit [DecidableEq Thread] in
/-- A step of `empty`, or what `worker_loop` does with its answer. -/
theorem Stopping.checks_lower (stopping : Stopping poolSize thread trace state)
    {pending : Option LogRecord} {pc : EmptyPc LogRecord}
    (here : state.workers 0 = .checkEmpty pending pc) :
    (∀ later, state.queue.emptyStep pc = .inl later →
      workerRank (waitingRecords trace ≠ []) (.checkEmpty pending later) <
        workerRank (waitingRecords trace ≠ []) (.checkEmpty pending pc)) ∧
    ∀ drain, state.queue.emptyStep pc = .inr drain →
      workerRank (waitingRecords trace ≠ []) (.pop drain pending .loadNext) <
        workerRank (waitingRecords trace ≠ []) (.checkEmpty pending pc) := by
  obtain ⟨chain, sound⟩ := stopping.engine.memory.emptyPhase here
  cases pc with
  | loadNext =>
      cases loaded : state.queue.next state.queue.head with
      | none =>
          refine ⟨fun later ran => ?_, fun drain ran => ?_⟩
          · obtain rfl : .compareTail state.queue.head = later := by
              simpa [MpscQueue.emptyStep, loaded] using ran
            by_cases empty : waitingRecords trace = [] <;> simp [workerRank, empty]
          · simp [MpscQueue.emptyStep, loaded] at ran
      | some successor =>
          have waits : waitingRecords trace ≠ [] := by
            intro empty
            rw [(chain_front chain empty).2] at loaded
            cases loaded
          refine ⟨fun later ran => ?_, fun drain ran => ?_⟩
          · simp [MpscQueue.emptyStep, loaded] at ran
          · cases drain <;> simp [workerRank, waits]
  | compareTail place =>
      obtain rfl : place = state.queue.head := sound
      refine ⟨fun later ran => ?_, fun drain ran => ?_⟩
      · simp [MpscQueue.emptyStep] at ran
      · cases drain with
        | true => by_cases empty : waitingRecords trace = [] <;> simp [workerRank, empty]
        | false =>
            have waits : waitingRecords trace ≠ [] := by
              intro empty
              simp [MpscQueue.emptyStep, (chain_front chain empty).1] at ran
            simp [workerRank, waits]

omit [DecidableEq Thread] [Fintype Thread] in
theorem popStep_null {queue after : MpscQueue LogRecord} {pc : PopPc LogRecord}
    (ran : queue.popStep pc = (after, .inr none)) : ∃ place, pc = .compareTail place := by
  cases pc with
  | compareTail place => exact ⟨place, rfl⟩
  | loadNext => cases loaded : queue.next queue.head <;> simp [MpscQueue.popStep, loaded] at ran
  | spin place => cases loaded : queue.next place <;> simp [MpscQueue.popStep, loaded] at ran
  | advance successor => simp [MpscQueue.popStep] at ran

def workLeft (trace : List (EngineEvent Thread)) (state : AtomicEngine Thread) : Nat :=
  16 * (waitingRecords trace).length + workerRank (waitingRecords trace ≠ []) (state.workers 0)

omit [DecidableEq Thread] [Fintype Thread] in
theorem workLeft_silent (silent : waitingRecords (trace ++ events) = waitingRecords trace)
    (lower : workerRank (waitingRecords trace ≠ []) (next.workers 0) <
      workerRank (waitingRecords trace ≠ []) (state.workers 0)) :
    next.workLeft (trace ++ events) < state.workLeft trace := by
  unfold workLeft
  rw [silent]
  omega

omit [DecidableEq Thread] in
/-- Every step of the worker brings a stopped engine nearer to its end. -/
theorem Stopping.worker_lowers (stopping : Stopping poolSize thread trace state)
    (moved : WorkerMove state 0 next events) :
    next.workLeft (trace ++ events) < state.workLeft trace := by
  have self : ∀ (other : AtomicEngine Thread) pc, (other.workerGoto 0 pc).workers 0 = pc := by
    simp [workerGoto]
  have memory := stopping.engine.memory
  cases moved with
  | keepsRunning here up =>
      rw [stopping.down] at up
      cases up
  | recycles here ran | recyclesLast here ran => cases ran
  | checks here ran =>
      refine workLeft_silent (waiting_silent rfl rfl) ?_
      rw [self, here]
      exact (stopping.checks_lower here).1 _ ran
  | checked here ran =>
      refine workLeft_silent (waiting_silent rfl rfl) ?_
      rw [self, here]
      exact (stopping.checks_lower here).2 _ ran
  | pops here ran =>
      refine workLeft_silent (waiting_silent rfl rfl) ?_
      rw [self, here]
      exact stopping.pops_lower here ran _
  | @takes drain pending pc queue record here ran =>
      obtain ⟨chain, sound⟩ := memory.phase here
      have front := memory.front here ran
      have rank := workerRank_le ((waitingRecords trace).tail ≠ [])
        (deliver drain pending record : AtomicWorker)
      have length := congrArg List.length front
      have advancing : workerRank (waitingRecords trace ≠ []) (.pop drain pending pc) ≥ 3 := by
        cases pc <;> cases drain <;> simp [workerRank]
      rw [List.length_cons] at length
      unfold workLeft
      rw [self, here, waiting_taken]
      omega
  | sleeps here ran =>
      have empty := memory.drained here ran
      obtain ⟨place, rfl⟩ := popStep_null ran
      refine workLeft_silent (waiting_silent rfl rfl) ?_
      rw [self, here]
      simp [workerRank, empty]
  | drained here ran =>
      obtain ⟨place, rfl⟩ := popStep_null ran
      refine workLeft_silent (waiting_silent rfl rfl) ?_
      rw [self, here]
      simp [workerRank]
  | @written drain record here =>
      refine workLeft_silent (waiting_silent rfl rfl) ?_
      rw [self, here]
      by_cases empty : waitingRecords trace = [] <;> cases drain <;> simp [workerRank, empty]
  | @resets pending pc queue later here ran =>
      refine workLeft_silent (waiting_silent rfl rfl) ?_
      rw [self, here]
      cases pc <;> cases ran <;> simp [workerRank]
  | @wasReset pending pc queue here ran =>
      refine workLeft_silent (waiting_silent rfl rfl) ?_
      rw [self, here]
      cases pending <;> cases pc <;> cases ran <;> simp [workerRank, afterReset]
  | seesStop here down =>
      refine workLeft_silent (waiting_silent rfl rfl) ?_
      rw [self, here]
      by_cases empty : waitingRecords trace = [] <;> simp [workerRank, empty]
  | recycled here ran | submits here read | destroys here read | finishes here ran =>
      refine workLeft_silent (waiting_silent rfl rfl) ?_
      rw [self, here]
      simp [workerRank]

def stopRank (thread : Thread) (trace : List (EngineEvent Thread)) (state : AtomicEngine Thread) :
    Nat :=
  state.workLeft trace + if (state.clients thread).role = .joining then 1 else 0

theorem stopping_ranked (thread : Thread) :
    (engineMachine (atomicFreeList LogRecord) Thread poolSize).Ranked orderly (fun _ => true)
      (Stopping poolSize thread) (fun trace state => state.stopRank thread trace) where
  kept := by
    intro trace state action next events stopping permitted stepped
    exact stopping.step permitted (step_move stepped).2
  lowered := by
    intro trace state action next events stopping permitted stepped
    unfold stopRank
    rcases stopping.acts permitted (step_move stepped).2 with
      ⟨_, _, joins, returns⟩ | ⟨_, _, works⟩
    · obtain ⟨_, _, workers, idle, rfl⟩ := returns.joined joins
      have silent : waitingRecords (trace ++ [.shutdownReturned thread]) = waitingRecords trace :=
        waiting_silent rfl rfl
      rw [joins, idle, workLeft, workLeft, silent, workers]
      simp [ClientPc.role]
    · have lower := stopping.worker_lowers works
      rw [works.clients_same, if_pos rfl]
      omega

omit [DecidableEq Thread] in
/-- The worker of a stopped engine is never stuck before its end. -/
theorem Stopping.worker_steps (stopping : Stopping poolSize thread trace state)
    (present : state.workers 0 ≠ .absent) (alive : state.workers 0 ≠ .finished) :
    (state.workerStep 0 false).isSome = true := by
  have memory := stopping.engine.memory
  have delivery := stopping.engine.delivery
  unfold workerStep
  cases here : state.workers 0 with
  | absent => exact absurd here present
  | finished => exact absurd here alive
  | loadRun pending => cases up : state.run <;> rfl
  | checkEmpty pending pc =>
      cases ended : state.queue.emptyStep pc <;> simp [ended]
  | pop drain pending pc =>
      obtain ⟨chain, sound⟩ := memory.phase here
      have result := chain.popStep sound
      generalize ended : state.queue.popStep pc = result at result
      cases result <;> simp [ended]
  | recycle | countWritten | recycleLast => rfl
  | submit drain record =>
      have taken : state.stored record ∈ (queuedEnvelopes trace).map some := by
        rw [delivery.order, here]
        simp [WorkerPc.stage, DeliveryStage.undelivered]
      obtain ⟨envelope, _, read⟩ := List.mem_map.mp taken
      simp [← read]
  | destroy drain record =>
      obtain ⟨envelope, read⟩ := Option.isSome_iff_exists.mp
        (delivery.living record (by rw [here]; rfl))
      simp [read]
  | reset pending pc => cases pc <;> rfl

theorem EngineOk.keeps_alive (ok : EngineOk poolSize trace state)
    (alive : state.terminated = false) {action : EngineAction Thread}
    (moved : Move poolSize state action next events) : next.terminated = false := by
  cases moved with
  | enqueue | shutdown => exact alive
  | worker moved =>
      rw [moved.terminated_same]
      exact alive
  | @client thread _ _ _ moved =>
      cases moved with
      | terminates here taken =>
          have launching : (state.clients thread).role = .launching := by rw [here]; rfl
          have free : state.worker = none := (ok.life.phase.launch launching).2.2.2.1
          rw [taken] at free
          cases free
      | _ => exact alive

/-- A thread that joins the worker of an orderly engine finds it stopped. -/
theorem stopping_of_join
    (reached : (engineMachine (atomicFreeList LogRecord) Thread poolSize).Reaches orderly
      trace state) (joins : state.clients thread = .join) :
    Stopping poolSize thread trace state ∧ .shutdownReturned thread ∉ trace := by
  have ok : EngineOk poolSize trace state ∧ WaitOk trace state ∧ state.terminated = false := by
    refine reached.invariant (fun trace state =>
      EngineOk poolSize trace state ∧ WaitOk trace state ∧ state.terminated = false)
      ⟨engine_ok .nil, .initial, rfl⟩ ?_
    rintro trace state action next events ⟨engine, waits, alive⟩ permitted stepped
    have moved := (step_move stepped).2
    exact ⟨engine.step permitted moved, waits.step engine.memory moved,
      engine.keeps_alive alive moved⟩
  obtain ⟨engine, waits, alive⟩ := ok
  have role : (state.clients thread).role = .joining := by rw [joins]; rfl
  obtain ⟨called, returned, down, _, roles⟩ := engine.life.phase.join role
  refine ⟨⟨engine, waits, called, down, alive, fun other different => ?_, .inl joins⟩, fun found => ?_⟩
  · have idle : (state.clients other).role = .idle := roles other different
    cases pc : state.clients other <;> simp_all [ClientPc.role]
  · have seen : (state.lifeView trace).returned = true := List.any_eq_true.mpr ⟨_, found, rfl⟩
    rw [returned] at seen
    cases seen

/-- Either the thread has returned from `shutdown`, or a step of it or of the worker is due. -/
theorem Stopping.returned_or_steps (stopping : Stopping poolSize thread trace state) :
    .shutdownReturned thread ∈ trace ∨
      ∃ action, orderly trace state action ∧ (state.step poolSize action).isSome = true := by
  rcases stopping.mine with joins | ⟨_, returned⟩
  · right
    have role : (state.clients thread).role = .joining := by rw [joins]; rfl
    have mine : state.worker = some 0 := (stopping.engine.life.phase.join role).2.2.2.1
    by_cases done : state.workers 0 = .finished
    · refine ⟨.client thread false, trivial, ?_⟩
      simp [LogEngine.step, stopping.alive, clientStep, joins, mine, done]
    · refine ⟨.worker 0 false, trivial, ?_⟩
      have steps : state.step poolSize (.worker 0 false) = state.workerStep 0 false := by
        simp [LogEngine.step, stopping.alive]
      rw [steps]
      exact stopping.worker_steps (stopping.waits.assigned 0 mine) done
  · exact .inl returned

/-- In an orderly run a `shutdown` that joins the worker returns: what is left of the run is
bounded by the records that wait in the queue, and nothing gets stuck on the way. -/
theorem shutdown_returns
    (reached : (engineMachine (atomicFreeList LogRecord) Thread poolSize).Reaches orderly
      trace state) (joins : state.clients thread = .join) :
    (∀ count segment last, (engineMachine (atomicFreeList LogRecord) Thread poolSize).Counted
      orderly (fun _ => true) trace state count segment last →
      count ≤ 16 * (waitingRecords trace).length + 19) ∧
    ∀ segment last, (engineMachine (atomicFreeList LogRecord) Thread poolSize).Path
      orderly trace state segment last →
      .shutdownReturned thread ∈ segment ∨
        ∃ action, orderly (trace ++ segment) last action ∧
          (last.step poolSize action).isSome = true := by
  obtain ⟨stopping, unreturned⟩ := stopping_of_join reached joins
  constructor
  · intro count segment last run
    have paid := (stopping_ranked thread).count_le run stopping
    have rank := workerRank_le (waitingRecords trace ≠ []) (state.workers 0)
    unfold stopRank workLeft at paid
    split at paid <;> omega
  · intro segment last path
    have later : Stopping poolSize thread (trace ++ segment) last := by
      refine path.invariant (Stopping poolSize thread) stopping ?_
      intro trace state action next events stopping permitted stepped
      exact stopping.step permitted (step_move stepped).2
    rcases later.returned_or_steps with returned | steps
    · exact .inl ((List.mem_append.mp returned).resolve_left unreturned)
    · exact .inr steps

omit [Fintype Thread]

def callSchedule : List (EngineAction Bool) :=
  [.client false false, .enqueue true, .client false false, .client true false,
    .client false false, .client true false, .client false false]

def calling : AtomicEngine Bool := LogEngine.initial.goto false .ensureRunning

instance (thread : Bool) (trace : List (EngineEvent Bool)) (state : AtomicEngine Bool)
    (action : EngineAction Bool) : Decidable (staysInEnqueue thread trace state action) :=
  inferInstanceAs (Decidable (_ = true))

theorem callSchedule_runs :
    ((engineMachine (atomicFreeList LogRecord) Bool 1).exec (staysInEnqueue false) [] calling
      callSchedule).isSome = true := by
  decide +kernel

theorem enqueue_wait_free_sample :
    (calling.step 1 (.client false true)).isSome = true ∧
      callSchedule.countP (EngineAction.isStepOf false) ≤ 1 + 11 := by
  have facts := @enqueue_wait_free Bool _ 1 false calling rfl rfl
  exact ⟨facts.1 true, facts.2 _ _ _ _ (EventMachine.counted_of_isSome callSchedule_runs)⟩

/-- The sample run up to the join, and what follows it. -/
theorem beforeJoin_runs :
    ((engineMachine (atomicFreeList LogRecord) Bool 1).exec orderly []
      (engineMachine (atomicFreeList LogRecord) Bool 1).start
      (engineSchedule.take 24)).isSome = true := by
  decide +kernel

theorem shutdown_returns_sample :
    let trace := (Option.get _ beforeJoin_runs).1
    let state := (Option.get _ beforeJoin_runs).2
    ∃ action, orderly trace state action ∧ (state.step 1 action).isSome = true := by
  intro trace state
  have joins : state.clients true = .join := by
    have role : (state.clients true).role = .joining := by decide +kernel
    cases pc : state.clients true <;> simp_all [ClientPc.role]
  have facts := shutdown_returns (EventMachine.reaches_of_isSome beforeJoin_runs) joins
  rcases facts.2 [] state .nil with returned | steps
  · cases returned
  · simpa using steps

end LogEngine

end MyServer
