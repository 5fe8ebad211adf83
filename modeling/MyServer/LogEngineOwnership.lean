import MyServer.LogEngineRest

/-!
Who owns a record. While the engine runs, every record of the pool belongs to the free
list, to one producer, to the queue or to the worker, and the queue's dummy belongs to the
worker, so that no push inserts a node that is still part of the queue.
-/

namespace MyServer

variable {Thread : Type} {list : FreeListSteps LogRecord}

def ClientPc.filling : ClientPc list → Bool
  | .allocatePool | .fillPool _ _ => true
  | _ => false

theorem ClientPc.push_of_pusher {pc : AtomicClient} {push : PushPc LogRecord}
    (busy : pc.pusher = some push) : pc = .push push := by
  cases pc <;> simp_all [ClientPc.pusher]

inductive RecordOwner (Thread : Type)
  | freeList
  | producer (thread : Thread)
  | queue
  | worker
  deriving DecidableEq

namespace LogEngine

abbrev stack (state : AtomicEngine Thread) : List LogRecord := state.freelist

def Owns (state : AtomicEngine Thread) (trace : List (EngineEvent Thread)) :
    RecordOwner Thread → LogRecord → Prop
  | .freeList, record => record ∈ state.stack
  | .producer thread, record => (state.clients thread).held = some record
  | .queue, record => record ∈ waitingRecords trace
  | .worker, record => (state.workers 0).current = some record ∨
      (state.workers 0).recycling = some record

def Initialised (state : AtomicEngine Thread) : Prop :=
  0 < state.generation ∧ ∀ thread, (state.clients thread).filling = false

def NoLoop (queue : MpscQueue LogRecord) : Prop := ∀ node, queue.next node ≠ some node

structure PoolOwned (poolSize : Nat) (trace : List (EngineEvent Thread))
    (state : AtomicEngine Thread) : Prop where
  owner : ∀ record ∈ state.pool poolSize, ∃! owner, state.Owns trace owner record
  pool : ∀ owner record, state.Owns trace owner record → record ∈ state.pool poolSize
  freeOnce : state.stack.Nodup
  queueOnce : (waitingRecords trace).Nodup
  oneWorker : ∀ id, state.workers id ≠ .absent → id = 0

structure QueueSafe (trace : List (EngineEvent Thread)) (state : AtomicEngine Thread) : Prop where
  dummy : ∀ record, state.queue.head = .record record →
    record ∉ state.stack ∧ ∀ thread, (state.clients thread).held ≠ some record
  outside : ∀ thread record, (state.clients thread).held = some record →
    .record record ∉ state.queue.chain (waitingRecords trace)
  apart : ∀ thread node prev, state.clients thread = .push (.linkPrev node prev) →
    prev ≠ .record node
  linked : ∀ prev node, (state.queue.chain (waitingRecords trace)).Adjacent prev (.record node) →
    state.queue.next prev = some (.record node) ∨
      ∃ thread, state.clients thread = .push (.linkPrev node prev)
  noLoop : NoLoop state.queue

variable {trace events : List (EngineEvent Thread)} {state next : AtomicEngine Thread}
variable {poolSize : Nat} {thread : Thread}

theorem mem_pool (trace : List (EngineEvent Thread)) {record : LogRecord} :
    record ∈ state.pool poolSize ↔ (state.view (waitingRecords trace)).InPool poolSize record := by
  unfold pool MemoryView.InPool
  obtain ⟨generation, index⟩ := record
  by_cases fresh : state.generation = 0
  · simp [view, fresh]
  · simp [view, fresh, Nat.pos_of_ne_zero fresh, eq_comm, and_comm]

theorem Owns.place (poolSize : Nat) {owner : RecordOwner Thread} {record : LogRecord}
    (owns : state.Owns trace owner record) :
    ∃ place, (state.view (waitingRecords trace)).At poolSize place record ∧
      match owner with
      | .freeList => place = .free
      | .producer thread => place = .client thread
      | .queue => place = .queued
      | .worker => place = .current ∨ place = .recycling := by
  cases owner with
  | freeList => exact ⟨.free, owns, rfl⟩
  | producer thread => exact ⟨.client thread, owns, rfl⟩
  | queue => exact ⟨.queued, owns, rfl⟩
  | worker =>
      rcases owns with current | recycling
      · exact ⟨.current, current, .inl rfl⟩
      · exact ⟨.recycling, recycling, .inr rfl⟩

theorem MemoryOk.owner_unique (memory : MemoryOk poolSize trace state)
    (left right : RecordOwner Thread) {record : LogRecord} (first : state.Owns trace left record)
    (second : state.Owns trace right record) : left = right := by
  obtain ⟨place, placed⟩ := memory.placed
  obtain ⟨here, atHere, isHere⟩ := first.place poolSize
  obtain ⟨there, atThere, isThere⟩ := second.place poolSize
  obtain rfl := placed.placed.unique here there atHere atThere
  cases left <;> cases right <;> simp_all

theorem MemoryOk.owned (memory : MemoryOk poolSize trace state) {owner : RecordOwner Thread}
    {record : LogRecord} (owns : state.Owns trace owner record) :
    record ∈ state.pool poolSize := by
  obtain ⟨place, placed⟩ := memory.placed
  obtain ⟨here, atHere, _⟩ := owns.place poolSize
  rw [mem_pool trace, ← placed.placed.pool, (placed.placed.located here record).mp atHere]
  rfl

/-- Outside `reset` the queue is a chain; during `reset` it is empty and nobody pushes. -/
theorem MemoryOk.shape (memory : MemoryOk poolSize trace state) :
    state.queue.Chain (waitingRecords trace) (fun thread => (state.clients thread).pusher) ∨
      waitingRecords trace = [] ∧ ∀ thread, (state.clients thread).pusher = none := by
  obtain ⟨place, placed⟩ := memory.placed
  exact Phase.shape placed.queue.phase

theorem MemoryOk.pool_owned (memory : MemoryOk poolSize trace state)
    (initialised : state.Initialised) : PoolOwned poolSize trace state := by
  obtain ⟨place, placed⟩ := memory.placed
  constructor
  case owner =>
    intro record inside
    rw [mem_pool trace, ← placed.placed.pool, Option.isSome_iff_exists] at inside
    obtain ⟨here, found⟩ := inside
    have there := (placed.placed.located here record).mpr found
    have owned : ∃ owner, state.Owns trace owner record := by
      cases here with
      | free => exact ⟨.freeList, there⟩
      | client thread => exact ⟨.producer thread, there⟩
      | queued => exact ⟨.queue, there⟩
      | current => exact ⟨.worker, .inl there⟩
      | recycling => exact ⟨.worker, .inr there⟩
      | unfilled =>
          obtain ⟨thread, index, node, fills, _⟩ := there
          have done := initialised.2 thread
          change (state.clients thread).start = some (.fill index node) at fills
          cases pc : state.clients thread <;> simp_all [ClientPc.start, ClientPc.filling]
    obtain ⟨owner, owns⟩ := owned
    exact ⟨owner, owns, fun other alsoOwns => memory.owner_unique other owner alsoOwns owns⟩
  case pool => exact fun owner record owns => memory.owned owns
  case freeOnce => exact placed.placed.freeNodup
  case queueOnce =>
    rcases memory.shape with chain | ⟨none, _⟩
    · have whole := chain.nodup
      rw [MpscQueue.chain, List.nodup_cons] at whole
      exact List.Nodup.of_map _ whole.2
    · rw [none]
      exact List.nodup_nil
  case oneWorker => exact fun id alive => memory.worker_zero alive

/-- A push under way links two different nodes of the queue. -/
theorem MemoryOk.link_apart (memory : MemoryOk poolSize trace state) {node : LogRecord}
    {prev : MpscNode LogRecord} (here : state.clients thread = .push (.linkPrev node prev)) :
    prev ≠ .record node := by
  have busy : (state.clients thread).pusher = some (.linkPrev node prev) := by
    rw [here]
    rfl
  rcases memory.shape with chain | ⟨_, quiet⟩
  · exact (chain.window thread node prev busy).1.ne chain.nodup
  · exact absurd ((quiet thread).symm.trans busy) (by simp)

theorem MemoryOk.queue_safe (memory : MemoryOk poolSize trace state)
    (noLoop : NoLoop state.queue) : QueueSafe trace state := by
  obtain ⟨place, placed⟩ := memory.placed
  constructor
  case dummy =>
    intro record head
    have dummy : state.queue.head = (state.workers 0).dummy := placed.queue.dummy
    have worker : state.Owns trace .worker record := WorkerPc.dummy_held (dummy.symm.trans head)
    refine ⟨fun free => ?_, fun thread held => ?_⟩
    · have same := memory.owner_unique .freeList .worker free worker
      cases same
    · have same := memory.owner_unique (.producer thread) .worker held worker
      cases same
  case outside => exact fun thread record held => placed.held_outside held
  case apart => exact fun thread node prev here => memory.link_apart here
  case linked =>
    intro prev node adjacent
    rcases memory.shape with chain | ⟨none, _⟩
    · rcases chain.linked prev node adjacent with stored | ⟨thread, busy⟩
      · exact .inl stored
      · exact .inr ⟨thread, ClientPc.push_of_pusher busy⟩
    · rw [none] at adjacent
      simp [MpscQueue.chain, List.adjacent_cons, List.not_adjacent_nil] at adjacent
  case noLoop => exact noLoop

/-! Runs with the `shutdown` calls after every `enqueue`. -/

def shutdownLast (trace : List (EngineEvent Thread)) (state : LogEngine list Thread) :
    EngineAction Thread → Prop
  | .enqueue _ => trace.any EngineEvent.isShutdownCalled = false
  | .shutdown _ => ∀ thread, (state.clients thread).call = none
  | _ => True

structure LastOk (trace : List (EngineEvent Thread)) (state : AtomicEngine Thread) : Prop where
  stopper : ∀ thread, (state.clients thread).stops = true →
    trace.any EngineEvent.isShutdownCalled = true
  called : trace.any EngineEvent.isShutdownCalled = true →
    ∀ thread, (state.clients thread).call = none
  fresh : trace.any EngineEvent.isShutdownCalled = false → state.run = false →
    state.generation = 0

theorem LastOk.apart (ok : LastOk trace state) {action : EngineAction Thread}
    (permitted : shutdownLast trace state action) : LogEngine.apart trace state action := by
  cases action with
  | enqueue thread =>
      intro other
      by_contra stops
      have called := ok.stopper other (by simpa using stops)
      simp [shutdownLast, called] at permitted
  | shutdown thread => exact permitted
  | client thread spurious | worker id spurious => trivial

theorem LastOk.startsFresh (ok : LastOk trace state) (action : EngineAction Thread) :
    LogEngine.startsFresh trace state action := by
  cases action with
  | client thread spurious =>
      intro ensures down
      refine ok.fresh ?_ down
      by_contra called
      have ended := ok.called (by simpa using called) thread
      cases client : state.clients thread <;>
        simp_all [ClientPc.ensuring, ClientPc.call]
  | enqueue thread | shutdown thread | worker id spurious => trivial

theorem WorkerMove.not_called {id : Nat} (moved : WorkerMove state id next events) :
    events.any EngineEvent.isShutdownCalled = false := by
  cases moved <;> rfl

variable [DecidableEq Thread]

theorem ClientMove.not_called (moved : ClientMove poolSize state thread next events) :
    events.any EngineEvent.isShutdownCalled = false := by
  cases moved <;> rfl

theorem ClientMove.stops_before (moved : ClientMove poolSize state thread next events)
    (other : Thread) (stops : (next.clients other).stops = true) :
    (state.clients other).stops = true := by
  by_cases same : other = thread
  · subst same
    cases moved with
    | stops here up =>
        rw [here]
        rfl
    | terminates => exact stops
    | allocates | filled =>
        simp only [goto, Function.update_self, fillFrom] at stops
        split at stops <;> simp [ClientPc.stops] at stops
    | _ => simp [goto, finish, ClientPc.stops] at stops
  · rwa [moved.others_same other same] at stops

theorem ClientMove.call_none (moved : ClientMove poolSize state thread next events)
    (other : Thread) (ended : (state.clients other).call = none) :
    (next.clients other).call = none := by
  by_cases same : other = thread
  · subst same
    cases moved with
    | stops | stoppedBefore | notJoinable | joins => simp [goto, ClientPc.call]
    | terminates => exact ended
    | _ => simp_all [ClientPc.call]
  · rwa [moved.others_same other same]

theorem LastOk.client (ok : LastOk trace state) (rest : RestOk state)
    (moved : ClientMove poolSize state thread next events) : LastOk (trace ++ events) next := by
  have before : (trace ++ events).any EngineEvent.isShutdownCalled =
      trace.any EngineEvent.isShutdownCalled := any_silent moved.not_called
  constructor
  · intro other stops
    rw [before]
    exact ok.stopper other (moved.stops_before other stops)
  · intro called other
    rw [before] at called
    exact moved.call_none other (ok.called called other)
  · intro early down
    rw [before] at early
    cases moved with
    | starts here off => simp [goto] at down
    | stops here up =>
        have called := ok.stopper thread (by rw [here]; rfl)
        simp [early] at called
    | allocates here =>
        have busy := rest.down down thread
        simp [here, ClientPc.call] at busy
    | _ => exact ok.fresh early down

omit [DecidableEq Thread] in
theorem LastOk.worker {id : Nat} (ok : LastOk trace state)
    (moved : WorkerMove state id next events) : LastOk (trace ++ events) next := by
  constructor <;> rw [any_silent moved.not_called]
  · rw [moved.clients_same]
    exact ok.stopper
  · rw [moved.clients_same]
    exact ok.called
  · rw [moved.run_same, moved.generation_same]
    exact ok.fresh

theorem LastOk.step (ok : LastOk trace state) (rest : RestOk state)
    {action : EngineAction Thread} (permitted : shutdownLast trace state action)
    (moved : Move poolSize state action next events) : LastOk (trace ++ events) next := by
  cases moved with
  | @enqueue thread here =>
      have early : trace.any EngineEvent.isShutdownCalled = false := permitted
      constructor <;> rw [any_silent rfl]
      · intro other stops
        exact ok.stopper other
          (before_update (ClientPc.stops · = true) (by simp [ClientPc.stops]) stops)
      · intro called
        simp [early] at called
      · exact ok.fresh
  | @shutdown thread here =>
      have ended : ∀ other, (state.clients other).call = none := permitted
      constructor
      · exact fun _ _ => by simp [EngineEvent.isShutdownCalled]
      · intro _ other
        exact after_update (ClientPc.call · = none) rfl fun _ => ended other
      · intro early
        simp [EngineEvent.isShutdownCalled] at early
  | client moved => exact ok.client rest moved
  | worker moved => exact ok.worker moved

omit [DecidableEq Thread] in
theorem LastOk.initial : LastOk [] (LogEngine.initial : AtomicEngine Thread) where
  stopper _ stops := by simp [LogEngine.initial, ClientPc.stops] at stops
  called called := by simp at called
  fresh _ _ := rfl

/-! The successors in the queue. -/

theorem NoLoop.pushStep {queue : MpscQueue LogRecord} (ok : NoLoop queue)
    (push : PushPc LogRecord)
    (apart : ∀ node prev, push = .linkPrev node prev → prev ≠ .record node) :
    NoLoop (queue.pushStep push).1 := by
  intro node
  cases push with
  | clearNext record =>
      by_cases same : node = .record record
      · simp [MpscQueue.pushStep, same]
      · simpa [MpscQueue.pushStep, same] using ok node
  | exchangeTail record => exact ok node
  | linkPrev record prev =>
      have different := apart record prev rfl
      by_cases same : node = prev
      · simpa [MpscQueue.pushStep, same] using different.symm
      · simpa [MpscQueue.pushStep, same] using ok node

theorem popStep_next (queue : MpscQueue LogRecord) (pc : PopPc LogRecord) :
    (queue.popStep pc).1.next = queue.next := by
  cases pc <;> simp only [MpscQueue.popStep] <;> split <;> rfl

theorem NoLoop.client (ok : NoLoop state.queue) (memory : MemoryOk poolSize trace state)
    (moved : ClientMove poolSize state thread next events) : NoLoop next.queue := by
  cases moved with
  | @clears record here => exact ok.pushStep (.clearNext record) (by simp)
  | @exchanges record here => exact ok.pushStep (.exchangeTail record) (by simp)
  | @links record prev here =>
      refine ok.pushStep (.linkPrev record prev) fun node place same => ?_
      cases same
      exact memory.link_apart here
  | _ => exact ok

omit [DecidableEq Thread] in
theorem NoLoop.worker {id : Nat} (ok : NoLoop state.queue)
    (moved : WorkerMove state id next events) : NoLoop next.queue := by
  have pops : ∀ {pc : PopPc LogRecord} {queue result},
      state.queue.popStep pc = (queue, result) → NoLoop queue := by
    intro pc queue result ran node
    have after : (state.queue.popStep pc).1 = queue := congrArg Prod.fst ran
    rw [← after, popStep_next]
    exact ok node
  have resets : ∀ {pc : ResetPc} {queue result},
      state.queue.resetStep pc = (queue, result) → NoLoop queue := by
    intro pc queue result ran node
    have after : (state.queue.resetStep pc).1 = queue := congrArg Prod.fst ran
    rw [← after]
    cases pc with
    | clearStub =>
        by_cases same : node = .stub
        · simp [MpscQueue.resetStep, same]
        · simpa [MpscQueue.resetStep, same] using ok node
    | setHead | setTail => exact ok node
  cases moved with
  | pops here ran | sleeps here ran | drained here ran | takes here ran => exact pops ran
  | resets here ran | wasReset here ran => exact resets ran
  | _ => exact ok

structure LateOk (poolSize : Nat) (trace : List (EngineEvent Thread))
    (state : AtomicEngine Thread) : Prop where
  memory : MemoryOk poolSize trace state
  rest : RestOk state
  last : LastOk trace state
  noLoop : NoLoop state.queue

theorem LateOk.step (ok : LateOk poolSize trace state) {action : EngineAction Thread}
    (permitted : shutdownLast trace state action)
    (moved : Move poolSize state action next events) : LateOk poolSize (trace ++ events) next := by
  have fresh := ok.last.startsFresh action
  refine ⟨ok.memory.step (ok.rest.calm ok.memory fresh) moved,
    ok.rest.step ok.memory (ok.last.apart permitted) fresh moved,
    ok.last.step ok.rest permitted moved, ?_⟩
  cases moved with
  | enqueue here | shutdown here => exact ok.noLoop
  | client moved => exact ok.noLoop.client ok.memory moved
  | worker moved => exact ok.noLoop.worker moved

theorem late_ok
    (reached : (engineMachine (atomicFreeList LogRecord) Thread poolSize).Reaches shutdownLast
      trace state) : LateOk poolSize trace state := by
  refine reached.invariant (LateOk poolSize) ⟨.initial, .initial, .initial, ?_⟩ ?_
  · intro node
    simp [engineMachine, LogEngine.initial, MpscQueue.initial]
  · intro trace state action next events ok permitted stepped
    exact ok.step permitted (step_move stepped).2

/-- With every `shutdown` after the `enqueue` calls, each record of the pool has exactly one
owner once the pool is initialised, and no push inserts a node of the queue. -/
theorem record_ownership
    (reached : (engineMachine (atomicFreeList LogRecord) Thread poolSize).Reaches shutdownLast
      trace state) :
    (state.Initialised → PoolOwned poolSize trace state) ∧ QueueSafe trace state := by
  have ok := late_ok reached
  exact ⟨ok.memory.pool_owned, ok.memory.queue_safe ok.noLoop⟩

instance [Fintype Thread] (trace : List (EngineEvent Thread)) (state : LogEngine list Thread)
    (action : EngineAction Thread) : Decidable (shutdownLast trace state action) :=
  match action with
  | .enqueue _ => inferInstanceAs (Decidable (_ = false))
  | .shutdown _ => inferInstanceAs (Decidable (∀ thread, (state.clients thread).call = none))
  | .client _ _ | .worker _ _ => .isTrue trivial

def ownershipSchedule : List (EngineAction Bool) :=
  [EngineAction.enqueue false] ++ List.replicate 12 (EngineAction.client false false) ++
    List.replicate 5 (EngineAction.worker 0 false) ++ [EngineAction.enqueue true] ++
    List.replicate 5 (EngineAction.client true false)

theorem ownershipSchedule_runs :
    ((engineMachine (atomicFreeList LogRecord) Bool 3).exec shutdownLast []
      (engineMachine (atomicFreeList LogRecord) Bool 3).start ownershipSchedule).isSome = true := by
  decide +kernel

theorem record_ownership_sample :
    let trace := (Option.get _ ownershipSchedule_runs).1
    let state := (Option.get _ ownershipSchedule_runs).2
    state.Owns trace .worker ⟨1, 2⟩ ∧ state.Owns trace .queue ⟨1, 1⟩ ∧
      state.Owns trace .freeList ⟨1, 0⟩ ∧ PoolOwned 3 trace state ∧ QueueSafe trace state := by
  have facts := record_ownership (EventMachine.reaches_of_isSome ownershipSchedule_runs)
  refine ⟨.inl (by decide +kernel), ?_, ?_, facts.1 ⟨by decide +kernel, by decide +kernel⟩, facts.2⟩
  · exact show _ ∈ waitingRecords _ by decide +kernel
  · exact show _ ∈ stack _ by decide +kernel

end LogEngine

end MyServer
