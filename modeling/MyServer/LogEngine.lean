import MyServer.LogEngineCalls

/-!
One run of the engine: it starts with the first `enqueue` calls and ends with one
`shutdown`, called when no `enqueue` is running. Everything accepted is delivered.
-/

namespace MyServer

variable {Thread : Type} {list : FreeListSteps LogRecord}

inductive Role
  | idle
  /-- In `enqueue`, outside the start of the engine. -/
  | calling
  /-- After the successful compare-exchange of `ensure_running`. -/
  | launching
  | stopping
  | joining
  deriving DecidableEq

def Role.plain : Role → Bool
  | .idle | .calling => true
  | _ => false

def ClientPc.role : ClientPc list → Role
  | .idle => .idle
  | .allocatePool | .fillPool _ _ | .startWorker | .assignWorker _ => .launching
  | .stop => .stopping
  | .join => .joining
  | _ => .calling

namespace WorkerPc

def stopSeen : WorkerPc list → Bool
  | .checkEmpty _ _ | .reset _ _ | .recycleLast _ _ | .finished => true
  | .pop drain _ _ | .recycle drain _ _ _ | .submit drain _ | .destroy drain _
  | .countWritten drain _ => drain
  | _ => false

def emptied : WorkerPc list → Bool
  | .reset _ _ | .recycleLast _ _ | .finished => true
  | _ => false

def isFinished : WorkerPc list → Bool
  | .finished => true
  | _ => false

end WorkerPc

namespace EngineEvent

def isShutdownCalled : EngineEvent Thread → Bool
  | .shutdownCalled _ => true
  | _ => false

def isShutdownReturned : EngineEvent Thread → Bool
  | .shutdownReturned _ => true
  | _ => false

end EngineEvent

structure LifeView (Thread : Type) where
  called : Bool
  returned : Bool
  run : Bool
  generation : Nat
  worker : Option Nat
  finished : Bool
  role : Thread → Role

namespace LifeView

inductive Ok (view : LifeView Thread) : Prop
  | unstarted (called : view.called = false) (returned : view.returned = false)
      (down : view.run = false) (fresh : view.generation = 0) (free : view.worker = none)
      (roles : ∀ thread, (view.role thread).plain = true)
  | launching (starter : Thread) (called : view.called = false) (returned : view.returned = false)
      (up : view.run = true) (free : view.worker = none)
      (starts : view.role starter = .launching)
      (roles : ∀ thread, thread ≠ starter → (view.role thread).plain = true)
  | running (called : view.called = false) (returned : view.returned = false)
      (up : view.run = true) (mine : view.worker = some 0)
      (roles : ∀ thread, (view.role thread).plain = true)
  | stopping (stopper : Thread) (called : view.called = true) (returned : view.returned = false)
      (started : view.run = false ∧ view.generation = 0 ∧ view.worker = none ∨
        view.run = true ∧ view.worker = some 0)
      (stops : view.role stopper = .stopping)
      (roles : ∀ thread, thread ≠ stopper → view.role thread = .idle)
  | joining (stopper : Thread) (called : view.called = true) (returned : view.returned = false)
      (down : view.run = false) (mine : view.worker = some 0)
      (stops : view.role stopper = .joining)
      (roles : ∀ thread, thread ≠ stopper → view.role thread = .idle)
  | closed (called : view.called = true) (down : view.run = false)
      (ended : view.generation = 0 ∨ view.finished = true)
      (roles : ∀ thread, view.role thread = .idle)

variable {view : LifeView Thread} {thread : Thread}

theorem Ok.calling (ok : view.Ok) (calling : view.role thread = .calling) :
    view.called = false ∧ (view.run = false → view.generation = 0) := by
  cases ok with
  | unstarted called _ _ fresh _ _ => exact ⟨called, fun _ => fresh⟩
  | launching _ called _ up _ _ _ | running called _ up _ _ => exact ⟨called, by simp [up]⟩
  | stopping stopper _ _ _ stops roles | joining stopper _ _ _ _ stops roles =>
      by_cases same : thread = stopper
      · simp_all
      · simp_all
  | closed _ _ _ roles => simp_all

theorem Ok.launch (ok : view.Ok) (was : view.role thread = .launching) :
    view.called = false ∧ view.returned = false ∧ view.run = true ∧ view.worker = none ∧
      ∀ other, other ≠ thread → (view.role other).plain = true := by
  cases ok with
  | launching starter called returned up free starts roles =>
      have same : thread = starter := by
        by_contra different
        simpa [was, Role.plain] using roles thread different
      subst same
      exact ⟨called, returned, up, free, roles⟩
  | unstarted _ _ _ _ _ roles | running _ _ _ _ roles =>
      simpa [was, Role.plain] using roles thread
  | stopping stopper _ _ _ stops roles | joining stopper _ _ _ _ stops roles =>
      by_cases same : thread = stopper <;> simp_all
  | closed _ _ _ roles => simp [roles] at was

theorem Ok.stop (ok : view.Ok) (was : view.role thread = .stopping) :
    view.called = true ∧ view.returned = false ∧
      (view.run = false ∧ view.generation = 0 ∧ view.worker = none ∨
        view.run = true ∧ view.worker = some 0) ∧
      ∀ other, other ≠ thread → view.role other = .idle := by
  cases ok with
  | stopping stopper called returned started stops roles =>
      have same : thread = stopper := by
        by_contra different
        simp [roles thread different] at was
      subst same
      exact ⟨called, returned, started, roles⟩
  | unstarted _ _ _ _ _ roles | running _ _ _ _ roles =>
      simpa [was, Role.plain] using roles thread
  | launching starter _ _ _ _ starts roles =>
      by_cases same : thread = starter
      · simp_all
      · simpa [was, Role.plain] using roles thread same
  | joining stopper _ _ _ _ stops roles => by_cases same : thread = stopper <;> simp_all
  | closed _ _ _ roles => simp [roles] at was

theorem Ok.join (ok : view.Ok) (was : view.role thread = .joining) :
    view.called = true ∧ view.returned = false ∧ view.run = false ∧ view.worker = some 0 ∧
      ∀ other, other ≠ thread → view.role other = .idle := by
  cases ok with
  | joining stopper called returned down mine stops roles =>
      have same : thread = stopper := by
        by_contra different
        simp [roles thread different] at was
      subst same
      exact ⟨called, returned, down, mine, roles⟩
  | unstarted _ _ _ _ _ roles | running _ _ _ _ roles =>
      simpa [was, Role.plain] using roles thread
  | launching starter _ _ _ _ starts roles =>
      by_cases same : thread = starter
      · simp_all
      · simpa [was, Role.plain] using roles thread same
  | stopping stopper _ _ _ stops roles => by_cases same : thread = stopper <;> simp_all
  | closed _ _ _ roles => simp [roles] at was

theorem Ok.works (ok : view.Ok) (started : view.generation ≠ 0) (alive : view.finished = false)
    (finished : Bool) : Ok { view with finished := finished } := by
  cases ok with
  | unstarted called returned down fresh free roles =>
      exact .unstarted called returned down fresh free roles
  | launching starter called returned up free starts roles =>
      exact .launching starter called returned up free starts roles
  | running called returned up mine roles => exact .running called returned up mine roles
  | stopping stopper called returned started stops roles =>
      exact .stopping stopper called returned started stops roles
  | joining stopper called returned down mine stops roles =>
      exact .joining stopper called returned down mine stops roles
  | closed called down ended roles => simp [started, alive] at ended

/-- The starting thread goes on with the start; it may allocate and spawn. -/
theorem Ok.launches (ok : view.Ok) (was : view.role thread = .launching) (generation : Nat)
    (finished : Bool) :
    Ok { view with generation := generation, finished := finished } := by
  obtain ⟨called, returned, up, free, roles⟩ := ok.launch was
  exact .launching thread called returned up free was roles

variable [DecidableEq Thread]

theorem Ok.goes (ok : view.Ok) {role : Role} (was : (view.role thread).plain = true)
    (becomes : role.plain = true) (early : view.called = false) :
    Ok { view with role := Function.update view.role thread role } := by
  cases ok with
  | unstarted called returned down fresh free roles =>
      exact .unstarted called returned down fresh free fun other =>
        after_update (Role.plain · = true) becomes fun _ => roles other
  | launching starter called returned up free starts roles =>
      have different : starter ≠ thread := by
        rintro rfl
        simp [starts, Role.plain] at was
      exact .launching starter called returned up free (by simpa [different] using starts)
        fun other apart => after_update (Role.plain · = true) becomes fun _ => roles other apart
  | running called returned up mine roles =>
      exact .running called returned up mine fun other =>
        after_update (Role.plain · = true) becomes fun _ => roles other
  | stopping _ called | joining _ called | closed called => simp [early] at called

/-- The compare-exchange of `ensure_running` succeeds. -/
theorem Ok.starts (ok : view.Ok) (was : view.role thread = .calling) (down : view.run = false) :
    Ok { view with run := true, role := Function.update view.role thread .launching } := by
  obtain ⟨early, _⟩ := ok.calling was
  cases ok with
  | unstarted called returned _ _ free roles =>
      refine .launching thread called returned rfl free (by simp) ?_
      intro other different
      simpa [different] using roles other
  | launching _ _ _ up | running _ _ up => simp [down] at up
  | stopping _ called | joining _ called | closed called => simp [early] at called

theorem Ok.assigns (ok : view.Ok) (was : view.role thread = .launching) :
    Ok { view with
      worker := some 0
      role := Function.update view.role thread .calling } := by
  obtain ⟨called, returned, up, free, roles⟩ := ok.launch was
  refine .running called returned up rfl ?_
  exact fun other => after_update (Role.plain · = true) rfl (roles other)

/-- `shutdown` is called while no `enqueue` is running. -/
theorem Ok.shuts (ok : view.Ok) (early : view.called = false)
    (idle : ∀ thread, view.role thread = .idle) :
    Ok { view with called := true, role := Function.update view.role thread .stopping } := by
  have others : ∀ other, other ≠ thread →
      Function.update view.role thread .stopping other = .idle := by
    intro other different
    simpa [different] using idle other
  cases ok with
  | unstarted _ returned down fresh free _ =>
      exact .stopping thread rfl returned (.inl ⟨down, fresh, free⟩) (by simp) others
  | launching starter _ _ _ _ starts _ => simp [idle] at starts
  | running _ returned up mine _ =>
      exact .stopping thread rfl returned (.inr ⟨up, mine⟩) (by simp) others
  | stopping _ called | joining _ called | closed called => simp [early] at called

theorem Ok.stops (ok : view.Ok) (was : view.role thread = .stopping) (up : view.run = true) :
    Ok { view with run := false, role := Function.update view.role thread .joining } := by
  obtain ⟨called, returned, ⟨down, _⟩ | ⟨_, mine⟩, roles⟩ := ok.stop was
  · simp [up] at down
  · refine .joining thread called returned rfl mine (by simp) ?_
    intro other different
    simpa [different] using roles other different

end LifeView

namespace LogEngine

/-- `shutdown` is called once, when no `enqueue` is running, and no `enqueue` is called later. -/
def orderly (trace : List (EngineEvent Thread)) (state : AtomicEngine Thread) :
    EngineAction Thread → Prop
  | .enqueue _ => trace.any EngineEvent.isShutdownCalled = false
  | .shutdown _ => trace.any EngineEvent.isShutdownCalled = false ∧
      ∀ thread, (state.clients thread).call = none
  | _ => True

def lifeView (state : AtomicEngine Thread) (trace : List (EngineEvent Thread)) :
    LifeView Thread where
  called := trace.any EngineEvent.isShutdownCalled
  returned := trace.any EngineEvent.isShutdownReturned
  run := state.run
  generation := state.generation
  worker := state.worker
  finished := (state.workers 0).isFinished
  role := fun thread => (state.clients thread).role

structure LifeOk (trace : List (EngineEvent Thread)) (state : AtomicEngine Thread) : Prop where
  phase : (state.lifeView trace).Ok
  stopSeen : (state.workers 0).stopSeen = true → state.run = false
  emptied : (state.workers 0).emptied = true → waitingRecords trace = []
  assigned : ∀ thread id, state.clients thread = .assignWorker id → id = 0

variable {trace events : List (EngineEvent Thread)} {state next : AtomicEngine Thread}
variable {poolSize : Nat} {thread : Thread}

theorem stopSeen_of_emptied {worker : AtomicWorker} (emptied : worker.emptied = true) :
    worker.stopSeen = true := by
  cases worker <;> simp_all [WorkerPc.emptied, WorkerPc.stopSeen]

theorem MemoryOk.absent (memory : MemoryOk poolSize trace state) (fresh : state.generation = 0) :
    state.workers 0 = .absent := by
  obtain ⟨place, placed⟩ := memory.placed
  have none : state.spawned = 0 := by
    by_contra some
    have one : state.generation = 1 := placed.started.spawnedLast (Nat.pos_of_ne_zero some)
    omega
  exact placed.started.absent 0 (Nat.le_of_eq none)

theorem MemoryOk.unstarted_waiting (memory : MemoryOk poolSize trace state)
    (fresh : state.generation = 0) : waitingRecords trace = [] := by
  obtain ⟨place, placed⟩ := memory.placed
  refine List.eq_nil_iff_forall_not_mem.mpr fun record waiting => ?_
  have queued := (placed.placed.located .queued record).mp waiting
  rw [placed.placed.none_before fresh record] at queued
  cases queued

/-- Once the worker has seen the stop, no `enqueue` is running. -/
theorem LifeOk.quiet (ok : LifeOk trace state) (memory : MemoryOk poolSize trace state)
    (seen : (state.workers 0).stopSeen = true) (thread : Thread) :
    (state.clients thread).role ≠ .calling := by
  intro calling
  have fresh : state.generation = 0 :=
    (ok.phase.calling calling).2 (ok.stopSeen seen)
  simp [memory.absent fresh, WorkerPc.stopSeen] at seen

/-- Before `shutdown` a thread outside `enqueue` is outside every call. -/
theorem LifeOk.idle (ok : LifeOk trace state)
    (early : trace.any EngineEvent.isShutdownCalled = false)
    (finished : ∀ thread, (state.clients thread).call = none) (thread : Thread) :
    (state.clients thread).role = .idle := by
  have notCalled : (state.lifeView trace).called = false := early
  cases pc : state.clients thread with
  | idle => rfl
  | stop =>
      have called := (ok.phase.stop (show (state.clients thread).role = .stopping by rw [pc]; rfl)).1
      simp [notCalled] at called
  | join =>
      have called := (ok.phase.join (show (state.clients thread).role = .joining by rw [pc]; rfl)).1
      simp [notCalled] at called
  | push push => cases push <;> simpa [pc, ClientPc.call] using finished thread
  | _ => simpa [pc, ClientPc.call] using finished thread

variable [DecidableEq Thread]

theorem role_same {role : Role} (same : role = (state.clients thread).role) :
    Function.update (fun other => (state.clients other).role) thread role =
      fun other => (state.clients other).role := by
  rw [same]
  exact Function.update_eq_self thread _

theorem LifeOk.client_step (ok : LifeOk trace state) {pc : AtomicClient}
    (clients : next.clients = Function.update state.clients thread pc)
    (workers : next.workers = state.workers)
    {called returned : Bool} (calledIs : (trace ++ events).any EngineEvent.isShutdownCalled = called)
    (returnedIs : (trace ++ events).any EngineEvent.isShutdownReturned = returned)
    (phase : LifeView.Ok ⟨called, returned, next.run, next.generation, next.worker,
      (state.workers 0).isFinished,
      Function.update (fun other => (state.clients other).role) thread pc.role⟩)
    (stopSeen : (state.workers 0).stopSeen = true → next.run = false)
    (emptied : (state.workers 0).emptied = true → waitingRecords (trace ++ events) = [])
    (assigned : ∀ id, pc ≠ .assignWorker id) : LifeOk (trace ++ events) next where
  phase := by
    rw [lifeView, calledIs, returnedIs, workers, clients]
    simp only [reads_update ClientPc.role]
    exact phase
  stopSeen := by rwa [workers]
  emptied := by rwa [workers]
  assigned := by
    intro other id here
    rw [clients] at here
    exact ok.assigned other id (before_update (· = ClientPc.assignWorker id) (assigned id) here)

theorem LifeOk.stays (ok : LifeOk trace state) {pc : AtomicClient}
    (clients : next.clients = Function.update state.clients thread pc)
    (role : pc.role = (state.clients thread).role)
    (run : next.run = state.run) (generation : next.generation = state.generation)
    (worker : next.worker = state.worker) (workers : next.workers = state.workers)
    (silent : events = []) (assigned : ∀ id, pc ≠ .assignWorker id) :
    LifeOk (trace ++ events) next := by
  subst silent
  refine ok.client_step clients workers (any_silent rfl) (any_silent rfl) ?_
    (by rw [run]; exact ok.stopSeen) (by simpa using ok.emptied) assigned
  rw [role_same role, run, generation, worker]
  exact ok.phase

omit [DecidableEq Thread] in
theorem role_fillFrom (state : AtomicEngine Thread) (index : Nat) :
    (state.fillFrom poolSize index).role = .launching := by
  unfold fillFrom
  split <;> rfl

omit [DecidableEq Thread] in
theorem fillFrom_assigns (state : AtomicEngine Thread) (index id : Nat) :
    state.fillFrom poolSize index ≠ .assignWorker id := by
  unfold fillFrom
  split <;> simp

theorem LifeOk.finishes (ok : LifeOk trace state)
    (calling : (state.clients thread).role = .calling)
    (clients : next.clients = Function.update state.clients thread .idle)
    (run : next.run = state.run) (generation : next.generation = state.generation)
    (worker : next.worker = state.worker) (workers : next.workers = state.workers)
    (waiting : waitingRecords (trace ++ events) = waitingRecords trace)
    (notCalled : events.any EngineEvent.isShutdownCalled = false)
    (notReturned : events.any EngineEvent.isShutdownReturned = false) :
    LifeOk (trace ++ events) next := by
  refine ok.client_step clients workers (any_silent notCalled) (any_silent notReturned) ?_
    (by rw [run]; exact ok.stopSeen) (by rw [waiting]; exact ok.emptied) (by simp)
  have early := (ok.phase.calling calling).1
  have plain : (state.clients thread).role.plain = true := by rw [calling]; rfl
  rw [run, generation, worker]
  exact ok.phase.goes plain rfl early

theorem LifeOk.spawns (ok : LifeOk trace state) (memory : MemoryOk poolSize trace state)
    (here : state.clients thread = .startWorker) :
    LifeOk trace
      ({ state with
          workers := Function.update state.workers state.spawned (.loadRun none)
          spawned := state.spawned + 1 }.goto thread (.assignWorker state.spawned)) := by
  obtain ⟨place, placed⟩ := memory.placed
  have first : state.spawned = 0 :=
    placed.started.starterFirst thread (by simp [view, here, ClientPc.start])
  have launching : (state.clients thread).role = .launching := by rw [here]; rfl
  constructor
  case phase =>
    have launches := ok.phase.launches launching state.generation
      (Function.update state.workers state.spawned (.loadRun none) 0).isFinished
    rw [lifeView, LogEngine.goto]
    simp only [reads_update ClientPc.role]
    exact (congrArg (fun role => LifeView.Ok { state.lifeView trace with finished := _, role := role })
      (role_same launching.symm)).mpr launches
  case stopSeen => simp [LogEngine.goto, first, WorkerPc.stopSeen]
  case emptied => simp [LogEngine.goto, first, WorkerPc.emptied]
  case assigned =>
    intro other id assigning
    rcases of_update (· = ClientPc.assignWorker id) assigning with ⟨-, now⟩ | before
    · obtain rfl : state.spawned = id := by simpa using now
      exact first
    · exact ok.assigned other id before

theorem LifeOk.returns (ok : LifeOk trace state)
    (clients : next.clients = Function.update state.clients thread .idle)
    (workers : next.workers = state.workers) (run : next.run = state.run)
    (generation : next.generation = state.generation)
    (called : trace.any EngineEvent.isShutdownCalled = true) (down : state.run = false)
    (ended : state.generation = 0 ∨ (state.workers 0).isFinished = true)
    (roles : ∀ other, other ≠ thread → (state.clients other).role = .idle) :
    LifeOk (trace ++ [.shutdownReturned thread]) next := by
  refine ok.client_step clients workers (any_silent rfl) rfl ?_
    (fun _ => by rw [run]; exact down) (by rw [waiting_silent rfl rfl]; exact ok.emptied) (by simp)
  have idle : ∀ other, Function.update (fun other => (state.clients other).role) thread .idle
      other = .idle := fun other => after_update (· = Role.idle) rfl (roles other)
  exact .closed called (by rw [run]; exact down) (by rw [generation]; exact ended) idle

theorem LifeOk.client (ok : LifeOk trace state) (memory : MemoryOk poolSize trace state)
    (moved : ClientMove poolSize state thread next events) : LifeOk (trace ++ events) next := by
  have calm := ok.quiet memory
  cases moved with
  | fills here ran => exact absurd (atomic_push ran).2 (by simp)
  | acquires here ran => exact absurd (atomic_pop ran).2 (by simp)
  | alreadyRunning here | misses here | obtains here | constructs here | clears here | links here =>
      exact ok.stays rfl (by rw [here]; rfl) rfl rfl rfl rfl rfl (by simp)
  | filled here ran =>
      exact ok.stays rfl (by rw [role_fillFrom, here]; rfl) rfl rfl rfl rfl rfl
        (fillFrom_assigns state _)
  | drops here | counts here =>
      exact ok.finishes (by rw [here]; rfl) rfl rfl rfl rfl rfl (waiting_silent rfl rfl) rfl rfl
  | exchanges here =>
      have calling : (state.clients thread).role = .calling := by rw [here]; rfl
      refine ok.client_step rfl rfl (any_silent rfl) (any_silent rfl) ?_ ok.stopSeen
        (fun emptied => absurd calling (calm (stopSeen_of_emptied emptied) thread)) (by simp)
      rw [role_same (by rw [here]; rfl)]
      exact ok.phase
  | starts here down =>
      have calling : (state.clients thread).role = .calling := by rw [here]; rfl
      refine ok.client_step rfl rfl (any_silent rfl) (any_silent rfl) ?_
        (fun seen => absurd calling (calm seen thread))
        (by simpa using ok.emptied) (by simp)
      exact ok.phase.starts calling down
  | allocates here =>
      have launching : (state.clients thread).role = .launching := by rw [here]; rfl
      refine ok.client_step rfl rfl (any_silent rfl) (any_silent rfl) ?_ ok.stopSeen
        (by simpa using ok.emptied)
        (fillFrom_assigns _ _)
      rw [role_same (by rw [role_fillFrom, launching])]
      exact ok.phase.launches launching
        (state.generation + 1) (state.workers 0).isFinished
  | spawns here =>
      rw [List.append_nil]
      exact ok.spawns memory here
  | assigns here free =>
      obtain rfl := ok.assigned thread _ here
      have launching : (state.clients thread).role = .launching := by rw [here]; rfl
      refine ok.client_step rfl rfl (any_silent rfl) (any_silent rfl) ?_ ok.stopSeen
        (by simpa using ok.emptied) (by simp)
      exact ok.phase.assigns launching
  | terminates here taken =>
      have launching : (state.clients thread).role = .launching := by rw [here]; rfl
      have free := (ok.phase.launch launching).2.2.2.1
      exact absurd (free.symm.trans taken) (by simp)
  | stops here up =>
      have stopping : (state.clients thread).role = .stopping := by rw [here]; rfl
      refine ok.client_step rfl rfl (any_silent rfl) (any_silent rfl) ?_ (fun _ => rfl)
        (by simpa using ok.emptied) (by simp)
      exact ok.phase.stops stopping up
  | stoppedBefore here down =>
      have stopping : (state.clients thread).role = .stopping := by rw [here]; rfl
      obtain ⟨called, _, ⟨_, fresh, _⟩ | ⟨up, _⟩, roles⟩ :=
        ok.phase.stop stopping
      · exact ok.returns rfl rfl rfl rfl called down (.inl fresh) roles
      · exact absurd (up.symm.trans down) (by simp)
  | notJoinable here free =>
      have joining : (state.clients thread).role = .joining := by rw [here]; rfl
      obtain ⟨_, _, _, mine, _⟩ := ok.phase.join joining
      exact absurd (free.symm.trans mine) (by simp)
  | @joins id here mine done =>
      have joining : (state.clients thread).role = .joining := by rw [here]; rfl
      obtain ⟨called, _, down, first, roles⟩ := ok.phase.join joining
      obtain rfl : id = 0 := Option.some.inj (mine.symm.trans first)
      exact ok.returns rfl rfl rfl rfl called down (.inr (by rw [done]; rfl)) roles

omit [DecidableEq Thread] in
theorem LifeOk.worker_step (ok : LifeOk trace state) (started : state.generation ≠ 0)
    (alive : (state.workers 0).isFinished = false)
    {worker : AtomicWorker} (workers : next.workers = Function.update state.workers 0 worker)
    (clients : next.clients = state.clients) (run : next.run = state.run)
    (generation : next.generation = state.generation) (joinable : next.worker = state.worker)
    (notCalled : events.any EngineEvent.isShutdownCalled = false)
    (notReturned : events.any EngineEvent.isShutdownReturned = false)
    (stopSeen : worker.stopSeen = true → state.run = false)
    (emptied : worker.emptied = true → waitingRecords (trace ++ events) = []) :
    LifeOk (trace ++ events) next where
  phase := by
    rw [lifeView, any_silent notCalled, any_silent notReturned, run, generation, joinable, clients]
    exact ok.phase.works started alive _
  stopSeen := by simpa [workers, run] using stopSeen
  emptied := by simpa [workers] using emptied
  assigned := by rw [clients]; exact ok.assigned

omit [DecidableEq Thread] in
/-- The last `pop` of the worker finds the queue empty. -/
theorem MemoryOk.drained (memory : MemoryOk poolSize trace state) {drain : Bool}
    {pending : Option LogRecord} {pc : PopPc LogRecord} {queue : MpscQueue LogRecord}
    (here : state.workers 0 = .pop drain pending pc)
    (ran : state.queue.popStep pc = (queue, .inr none)) : waitingRecords trace = [] := by
  obtain ⟨place, placed⟩ := memory.placed
  have phase : QueueWorld.Phase ⟨state.queue, fun thread => (state.clients thread).pusher,
    (state.workers 0).consumer⟩ (waitingRecords trace) := placed.queue.phase
  rw [here] at phase
  have result := phase.1.popStep phase.2
  rw [ran] at result
  cases result with
  | null empty => exact empty

omit [DecidableEq Thread] in
theorem LifeOk.worker (ok : LifeOk trace state) (memory : MemoryOk poolSize trace state)
    {id : Nat} (moved : WorkerMove state id next events) : LifeOk (trace ++ events) next := by
  have present : state.workers id ≠ .absent := by
    cases moved <;> simp_all
  obtain rfl := memory.worker_zero present
  have started : state.generation ≠ 0 := fun fresh => present (memory.absent fresh)
  have alive : (state.workers 0).isFinished = false := by
    cases moved <;> simp_all [WorkerPc.isFinished]
  have stopSeen := ok.stopSeen
  have emptied := ok.emptied
  cases moved with
  | keepsRunning here up =>
      exact ok.worker_step started alive rfl rfl rfl rfl rfl rfl rfl (by simp [WorkerPc.stopSeen])
        (by simp [WorkerPc.emptied])
  | seesStop here down =>
      exact ok.worker_step started alive rfl rfl rfl rfl rfl rfl rfl (fun _ => down)
        (by simp [WorkerPc.emptied])
  | sleeps here ran =>
      exact ok.worker_step started alive rfl rfl rfl rfl rfl rfl rfl (by simp [WorkerPc.stopSeen])
        (by simp [WorkerPc.emptied])
  | drained here ran =>
      rw [here] at stopSeen
      refine ok.worker_step started alive rfl rfl rfl rfl rfl rfl rfl
        (fun _ => stopSeen rfl) fun _ => ?_
      rw [List.append_nil]
      exact memory.drained here ran
  | @takes drain pending pc queue record here ran =>
      rw [here] at stopSeen
      refine ok.worker_step started alive rfl rfl rfl rfl rfl rfl rfl ?_ ?_
      · cases pending <;> exact stopSeen
      · cases pending <;> simp [deliver, WorkerPc.emptied]
  | @written drain record here =>
      rw [here] at stopSeen
      refine ok.worker_step started alive rfl rfl rfl rfl rfl rfl rfl ?_ ?_
      · cases drain
        · simp [WorkerPc.stopSeen]
        · exact stopSeen
      · cases drain <;> simp [WorkerPc.emptied]
  | @wasReset pending pc queue here ran =>
      rw [here] at stopSeen emptied
      refine ok.worker_step started alive rfl rfl rfl rfl rfl rfl rfl
        (fun _ => stopSeen rfl) fun _ => ?_
      rw [List.append_nil]
      exact emptied rfl
  | checked here ran =>
      rw [here] at stopSeen
      exact ok.worker_step started alive rfl rfl rfl rfl rfl rfl rfl (fun _ => stopSeen rfl)
        (by simp [WorkerPc.emptied])
  | submits here read | destroys here read =>
      rw [here] at stopSeen
      exact ok.worker_step started alive rfl rfl rfl rfl rfl rfl rfl stopSeen
        (by simp [WorkerPc.emptied])
  | _ =>
      rename_i here _
      rw [here] at stopSeen emptied
      refine ok.worker_step started alive rfl rfl rfl rfl rfl rfl rfl stopSeen ?_
      rw [List.append_nil]
      exact emptied

omit [DecidableEq Thread] in
theorem LifeOk.initial : LifeOk [] (LogEngine.initial : AtomicEngine Thread) := by
  constructor
  case phase => exact .unstarted rfl rfl rfl rfl rfl fun _ => rfl
  all_goals simp [LogEngine.initial, WorkerPc.stopSeen, WorkerPc.emptied]

theorem LifeOk.step (ok : LifeOk trace state) (memory : MemoryOk poolSize trace state)
    {action : EngineAction Thread} (permitted : orderly trace state action)
    (moved : Move poolSize state action next events) : LifeOk (trace ++ events) next := by
  cases moved with
  | @enqueue thread here =>
      refine ok.client_step rfl rfl (any_silent rfl) (any_silent rfl) ?_ ok.stopSeen
        (by rw [waiting_silent rfl rfl]; exact ok.emptied) (by simp)
      have plain : (state.clients thread).role.plain = true := by rw [here]; rfl
      exact ok.phase.goes plain rfl permitted
  | @shutdown thread here =>
      obtain ⟨early, finished⟩ := permitted
      refine ok.client_step rfl rfl (show _ = true by simp [EngineEvent.isShutdownCalled])
        (any_silent rfl) ?_ ok.stopSeen (by rw [waiting_silent rfl rfl]; exact ok.emptied) (by simp)
      exact ok.phase.shuts early (ok.idle early finished)
  | client moved => exact ok.client memory moved
  | worker moved => exact ok.worker memory moved

omit [DecidableEq Thread] in
theorem LifeOk.calm (ok : LifeOk trace state) (memory : MemoryOk poolSize trace state)
    (action : EngineAction Thread) : calm trace state action := by
  cases action with
  | enqueue thread | shutdown thread => trivial
  | client thread spurious =>
      rw [LogEngine.calm]
      split
      · rename_i here
        intro down
        have calling : (state.clients thread).role = .calling := by rw [here]; rfl
        refine ⟨(ok.phase.calling calling).2 down, ?_⟩
        intro other allocating
        have launching : (state.clients other).role = .launching := by rw [allocating]; rfl
        have up : state.run = true := (ok.phase.launch launching).2.2.1
        simp [down] at up
      · rename_i record here
        have calling : (state.clients thread).role = .calling := by rw [here]; rfl
        by_contra resetting
        refine ok.quiet memory ?_ thread calling
        cases worker : state.workers 0 <;> simp_all [WorkerPc.consumer, ConsumerPc.resetting,
          WorkerPc.stopSeen]
      · trivial
  | worker id spurious =>
      rw [LogEngine.calm]
      split
      · rename_i pending pc here
        obtain rfl := memory.worker_zero (show state.workers id ≠ .absent by simp [here])
        intro _ thread
        have quiet := ok.quiet memory (by rw [here]; rfl) thread
        cases client : state.clients thread <;> simp_all [ClientPc.pusher, ClientPc.role]
      · trivial

structure EngineOk [Fintype Thread] (poolSize : Nat) (trace : List (EngineEvent Thread))
    (state : AtomicEngine Thread) : Prop where
  memory : MemoryOk poolSize trace state
  delivery : DeliveryOk trace state
  calls : CallsOk trace state
  life : LifeOk trace state

/-- All invariants together hold in every orderly run. -/
theorem engine_ok [Fintype Thread]
    (reached : (engineMachine (atomicFreeList LogRecord) Thread poolSize).Reaches orderly
      trace state) : EngineOk poolSize trace state := by
  refine reached.invariant (EngineOk poolSize) ⟨.initial, .initial, .initial, .initial⟩ ?_
  intro trace state action next events ok permitted stepped
  have moved := (step_move stepped).2
  exact ⟨ok.memory.step (ok.life.calm ok.memory action) moved, ok.delivery.step ok.memory moved,
    ok.calls.step moved, ok.life.step ok.memory permitted moved⟩

def pool (state : AtomicEngine Thread) (poolSize : Nat) : List LogRecord :=
  if state.generation = 0 then []
  else (List.range poolSize).map fun index => ⟨state.generation, index⟩

omit [DecidableEq Thread] in
theorem pool_nodup (state : AtomicEngine Thread) (poolSize : Nat) :
    (state.pool poolSize).Nodup := by
  unfold pool
  split
  · exact List.nodup_nil
  · exact List.nodup_range.map fun left right same => by simpa using same

/-- Everything accepted is delivered, and every record is back. -/
structure Delivered (poolSize : Nat) (trace : List (EngineEvent Thread))
    (state : AtomicEngine Thread) : Prop where
  written : state.written = state.enqueued
  /-- The accepted envelopes are delivered one after the other. -/
  delivered : ∃ order : List (Envelope Thread), order.Nodup ∧
    (∀ envelope, envelope ∈ order ↔ .enqueued envelope ∈ trace) ∧
    deliveries trace = order.flatMap deliveryOf ∧
    ∀ thread, (callsOf thread order).Sublist (callsOf thread (calledEnvelopes trace))
  dropped : ∀ envelope, .dropped envelope ∈ trace → .submitted envelope ∉ trace
  queue : state.queue.tail = state.queue.head ∧ state.queue.next state.queue.head = none
  freelist : state.freelist.Perm (state.pool poolSize)

def running [Fintype Thread] (state : AtomicEngine Thread) : Nat :=
  countWhere (fun client => client.call.isSome) state.clients

/-- No call is under way and the worker, if there was one, has returned. -/
structure Quiescent (trace : List (EngineEvent Thread)) (state : AtomicEngine Thread) : Prop where
  idle : ∀ thread, state.clients thread = .idle
  done : state.workers 0 = .absent ∨ state.workers 0 = .finished
  drained : waitingRecords trace = []

omit [DecidableEq Thread] in
theorem Quiescent.no_stage (quiet : Quiescent trace state) : (state.workers 0).stage = none := by
  rcases quiet.done with absent | finished
  · rw [absent]; rfl
  · rw [finished]; rfl

omit [DecidableEq Thread] in
theorem MemoryOk.empty_queue (memory : MemoryOk poolSize trace state)
    (quiet : Quiescent trace state) :
    state.queue.tail = state.queue.head ∧ state.queue.next state.queue.head = none := by
  obtain ⟨place, placed⟩ := memory.placed
  have chain : state.queue.Chain (waitingRecords trace)
      fun thread => (state.clients thread).pusher := by
    refine Phase.chain placed.queue.phase ?_
    change (state.workers 0).consumer.resetting = false
    rcases quiet.done with absent | finished
    · rw [absent]; rfl
    · rw [finished]; rfl
  rw [quiet.drained] at chain
  have tail : state.queue.tail = state.queue.head := by
    simpa [MpscQueue.chain, eq_comm] using chain.tailLast
  exact ⟨tail, tail ▸ chain.tailNull⟩

omit [DecidableEq Thread] in
/-- A record in the pool has no place but the free list. -/
theorem MemoryOk.all_free (memory : MemoryOk poolSize trace state)
    (quiet : Quiescent trace state) : state.freelist.Perm (state.pool poolSize) := by
  obtain ⟨place, placed⟩ := memory.placed
  refine (List.perm_ext_iff_of_nodup placed.placed.freeNodup (state.pool_nodup poolSize)).mpr
    fun record => ?_
  have inPool : record ∈ state.pool poolSize ↔ (place record).isSome = true := by
    rw [placed.placed.pool]
    unfold pool MemoryView.InPool
    obtain ⟨generation, index⟩ := record
    by_cases fresh : state.generation = 0
    · simp [view, fresh]
    · simp [view, fresh, Nat.pos_of_ne_zero fresh, eq_comm, and_comm]
  rw [inPool, Option.isSome_iff_exists]
  constructor
  · exact fun free => ⟨_, (placed.placed.located .free record).mp free⟩
  · rintro ⟨here, found⟩
    have there := (placed.placed.located here record).mpr found
    cases here with
    | free => exact there
    | unfilled =>
        obtain ⟨thread, index, node, filling, _⟩ := there
        simp [view, quiet.idle, ClientPc.start] at filling
    | client thread => simp [MemoryView.At, view, quiet.idle, ClientPc.held] at there
    | queued => simp [MemoryView.At, view, quiet.drained] at there
    | current | recycling =>
        rcases quiet.done with absent | finished
        · simp [MemoryView.At, view, absent, WorkerPc.current, WorkerPc.recycling] at there
        · simp [MemoryView.At, view, finished, WorkerPc.current, WorkerPc.recycling] at there

section Closed

variable [Fintype Thread]

omit [DecidableEq Thread] in
/-- At every moment each call is counted once or still under way. -/
theorem EngineOk.counted (ok : EngineOk poolSize trace state) :
    state.enqueued + state.dropped + UInt64.ofNat state.running =
        UInt64.ofNat (calledEnvelopes trace).length ∧
      ((calledEnvelopes trace).length < 2 ^ 64 →
        state.enqueued.toNat + state.dropped.toNat + state.running =
          (calledEnvelopes trace).length) := by
  have total : (calledEnvelopes trace).length = (enqueuedEnvelopes trace).length +
      (droppedEnvelopes trace).length + state.running := ok.calls.calls.total
  rw [ok.calls.enqueued, ok.calls.dropped]
  constructor
  · rw [total, UInt64.ofNat_add, UInt64.ofNat_add]
  · intro small
    rw [UInt64.toNat_ofNat', UInt64.toNat_ofNat', Nat.mod_eq_of_lt (by omega),
      Nat.mod_eq_of_lt (by omega), total]

omit [DecidableEq Thread] in
/-- When `shutdown` has returned, nothing is under way. -/
theorem EngineOk.closed (ok : EngineOk poolSize trace state) {thread : Thread}
    (returned : .shutdownReturned thread ∈ trace) : Quiescent trace state := by
  have seen : (state.lifeView trace).returned = true :=
    List.any_eq_true.mpr ⟨_, returned, rfl⟩
  cases ok.life.phase with
  | unstarted _ no | launching _ _ no | running _ no | stopping _ _ no | joining _ _ no =>
      simp [seen] at no
  | closed _ _ ended roles =>
      constructor
      case idle =>
        intro other
        have idle : (state.clients other).role = .idle := roles other
        cases pc : state.clients other <;> simp_all [ClientPc.role]
      case done =>
        rcases ended with fresh | finished
        · exact .inl (ok.memory.absent fresh)
        · have finished : (state.workers 0).isFinished = true := finished
          cases worker : state.workers 0 <;> simp_all [WorkerPc.isFinished]
      case drained =>
        rcases ended with fresh | finished
        · exact ok.memory.unstarted_waiting fresh
        · have finished : (state.workers 0).isFinished = true := finished
          apply ok.life.emptied
          cases worker : state.workers 0 <;> simp_all [WorkerPc.isFinished, WorkerPc.emptied]

omit [DecidableEq Thread] [Fintype Thread] in
theorem DeliveryOk.delivered (delivery : DeliveryOk trace state) (quiet : Quiescent trace state) :
    queuedEnvelopes trace = submittedEnvelopes trace ∧
      deliveries trace = (queuedEnvelopes trace).flatMap deliveryOf ∧
      (submittedEnvelopes trace).length = writtenCount trace := by
  obtain ⟨order, paired, _, counted, _⟩ := delivery
  rw [quiet.no_stage] at order paired counted
  have same : queuedEnvelopes trace = submittedEnvelopes trace := by
    apply List.map_injective_iff.mpr (Option.some_injective _)
    simpa [DeliveryStage.undelivered, quiet.drained] using order
  refine ⟨same, ?_, counted⟩
  rw [same]
  simpa [DeliveryStage.owed] using paired

omit [DecidableEq Thread] in
theorem CallsOk.written_enqueued (ok : CallsOk trace state) (delivery : DeliveryOk trace state)
    (quiet : Quiescent trace state) : state.written = state.enqueued := by
  obtain ⟨same, _, counted⟩ := delivery.delivered quiet
  have uncounted := ok.calls.uncounted
  have none : countWhere CallStage.isAccepted (state.callView trace).stage = 0 :=
    countWhere_eq_zero fun thread => by simp [callView, quiet.idle, ClientPc.call,
      CallStage.isAccepted]
  rw [none] at uncounted
  have length : (queuedEnvelopes trace).length = (enqueuedEnvelopes trace).length := uncounted
  rw [ok.written, ok.enqueued, ← counted, ← same, length]

omit [DecidableEq Thread] in
/-- The envelopes that entered the queue are the accepted ones. -/
theorem EngineOk.mem_queued (ok : EngineOk poolSize trace state) (quiet : Quiescent trace state)
    (envelope : Envelope Thread) :
    envelope ∈ queuedEnvelopes trace ↔ .enqueued envelope ∈ trace := by
  rw [← mem_enqueuedEnvelopes]
  have accepted : envelope ∈ enqueuedEnvelopes trace ↔ envelope ∈ queuedEnvelopes trace ∧
      envelope.call < state.returned envelope.thread := ok.calls.calls.accepted envelope
  refine ⟨fun inside => accepted.mpr ⟨inside, ?_⟩, fun inside => (accepted.mp inside).1⟩
  simpa [callView, quiet.idle, ClientPc.call, CallStage.appended] using
    ok.calls.calls.appended envelope inside

omit [DecidableEq Thread] in
theorem EngineOk.dropped_silent (ok : EngineOk poolSize trace state)
    (quiet : Quiescent trace state) (envelope : Envelope Thread)
    (dropped : .dropped envelope ∈ trace) : .submitted envelope ∉ trace := by
  rw [← mem_submittedEnvelopes, ← (ok.delivery.delivered quiet).1]
  exact (ok.calls.calls.refused envelope (mem_droppedEnvelopes.mpr dropped)).2

end Closed

/-- In an orderly run every call of `enqueue` is counted once or still under way, and when
`shutdown` has returned everything accepted is delivered. -/
theorem log_engine_delivers [Fintype Thread]
    (reached : (engineMachine (atomicFreeList LogRecord) Thread poolSize).Reaches orderly
      trace state) :
    state.enqueued + state.dropped + UInt64.ofNat state.running =
        UInt64.ofNat (calledEnvelopes trace).length ∧
      ((calledEnvelopes trace).length < 2 ^ 64 →
        state.enqueued.toNat + state.dropped.toNat + state.running =
          (calledEnvelopes trace).length) ∧
      (∀ thread, .shutdownReturned thread ∈ trace → Delivered poolSize trace state) := by
  have ok := engine_ok reached
  refine ⟨ok.counted.1, ok.counted.2, fun thread returned => ?_⟩
  have quiet := ok.closed returned
  constructor
  case written => exact ok.calls.written_enqueued ok.delivery quiet
  case delivered =>
    exact ⟨queuedEnvelopes trace, Envelope.nodup ok.calls.calls.order, ok.mem_queued quiet,
      (ok.delivery.delivered quiet).2.1, ok.calls.calls.program_order⟩
  case dropped => exact ok.dropped_silent quiet
  case queue => exact ok.memory.empty_queue quiet
  case freelist => exact ok.memory.all_free quiet

instance [Fintype Thread] (trace : List (EngineEvent Thread)) (state : AtomicEngine Thread)
    (action : EngineAction Thread) : Decidable (orderly trace state action) :=
  match action with
  | .enqueue _ => inferInstanceAs (Decidable (_ = false))
  | .shutdown _ =>
      inferInstanceAs (Decidable (_ = false ∧ ∀ thread, (state.clients thread).call = none))
  | .client _ _ | .worker _ _ => .isTrue trivial

def engineSchedule : List (EngineAction Bool) :=
  [EngineAction.enqueue false, .enqueue true] ++
    List.replicate 6 (EngineAction.client false false) ++
    List.replicate 3 (EngineAction.client true false) ++
    List.replicate 5 (EngineAction.client false false) ++
    List.replicate 6 (EngineAction.worker 0 false) ++
    [EngineAction.shutdown true, .client true false] ++
    List.replicate 9 (EngineAction.worker 0 false) ++ [EngineAction.client true false]

theorem engineSchedule_runs :
    ((engineMachine (atomicFreeList LogRecord) Bool 1).exec orderly []
      (engineMachine (atomicFreeList LogRecord) Bool 1).start engineSchedule).isSome = true := by
  decide +kernel

theorem log_engine_delivers_sample :
    let trace := (Option.get _ engineSchedule_runs).1
    enqueuedEnvelopes trace = [⟨false, 0⟩] ∧ droppedEnvelopes trace = [⟨true, 0⟩] ∧
      deliveries trace = deliveryOf ⟨false, 0⟩ ∧
      Delivered 1 trace (Option.get _ engineSchedule_runs).2 := by
  have facts := log_engine_delivers (EventMachine.reaches_of_isSome engineSchedule_runs)
  exact ⟨by decide +kernel, by decide +kernel, by decide +kernel,
    facts.2.2 true (by decide +kernel)⟩

end LogEngine

end MyServer
