import MyServer.LogEngineRest

/-!
One `shutdown` of a running engine while `enqueue` calls are still under way. The worker
drains what it finds, so nothing may be queued after its last `pop`.
-/

namespace MyServer

variable {Thread : Type} {list : FreeListSteps LogRecord}

def ClientPc.exchanging : ClientPc list → Bool
  | .push (.exchangeTail _) => true
  | _ => false

def Role.stops : Role → Bool
  | .stopping | .joining => true
  | _ => false

theorem Role.plain_calm {role : Role} (plain : role.plain = true) :
    role.stops = false ∧ role ≠ .launching := by
  cases role <;> simp_all [Role.plain, Role.stops]

theorem ClientPc.idle_of_role {pc : ClientPc list} (idle : pc.role = .idle) : pc = .idle := by
  cases pc <;> simp_all [ClientPc.role]

namespace LifeView

inductive Launch (view : LifeView Thread) : Prop
  | fresh (fresh : view.generation = 0) (free : view.worker = none)
      (noStart : ∀ thread, view.role thread ≠ .launching)
  | launching (starter : Thread) (free : view.worker = none)
      (starts : view.role starter = .launching)
      (others : ∀ thread, thread ≠ starter → view.role thread ≠ .launching)
  | launched (mine : view.worker = some 0) (noStart : ∀ thread, view.role thread ≠ .launching)
  | joined (returned : view.returned = true) (noStart : ∀ thread, view.role thread ≠ .launching)

inductive Halt (view : LifeView Thread) : Prop
  | before (early : view.called = false) (pending : view.returned = false)
      (down : view.run = false → view.generation = 0 ∧ view.worker = none ∧
        ∀ thread, view.role thread ≠ .launching)
      (noStop : ∀ thread, (view.role thread).stops = false)
  | stopping (stopper : Thread) (called : view.called = true) (pending : view.returned = false)
      (up : view.run = true) (stops : view.role stopper = .stopping)
      (others : ∀ thread, thread ≠ stopper → (view.role thread).stops = false)
  | joining (stopper : Thread) (called : view.called = true) (pending : view.returned = false)
      (down : view.run = false) (joins : view.role stopper = .joining)
      (others : ∀ thread, thread ≠ stopper → (view.role thread).stops = false)
  | closed (called : view.called = true) (down : view.run = false)
      (finished : view.finished = true) (noStop : ∀ thread, (view.role thread).stops = false)

variable {view next : LifeView Thread} {thread : Thread}

theorem Launch.starter (launch : view.Launch) (was : view.role thread = .launching) :
    view.worker = none ∧ ∀ other, other ≠ thread → view.role other ≠ .launching := by
  cases launch with
  | fresh _ _ noStart | launched _ noStart | joined _ noStart => exact absurd was (noStart thread)
  | launching starter free starts others =>
      have same : thread = starter := by
        by_contra different
        exact others thread different was
      subst same
      exact ⟨free, others⟩

theorem Launch.worker_zero (launch : view.Launch) {id : Nat} (pending : view.returned = false)
    (held : view.worker = some id) : id = 0 := by
  cases launch with
  | fresh _ free | launching _ free => simp [held] at free
  | launched mine => exact Option.some.inj (held.symm.trans mine)
  | joined returned => simp [pending] at returned

/-- Before `shutdown` an engine that is not running was never started. -/
theorem Halt.unstarted (halt : view.Halt) (early : view.called = false) (down : view.run = false) :
    view.generation = 0 ∧ view.worker = none ∧ ∀ thread, view.role thread ≠ .launching := by
  cases halt with
  | before _ _ unstarted => exact unstarted down
  | stopping _ called | joining _ called | closed called => simp [early] at called

theorem Halt.stop (halt : view.Halt) (was : view.role thread = .stopping) :
    view.called = true ∧ view.returned = false ∧ view.run = true ∧
      ∀ other, other ≠ thread → (view.role other).stops = false := by
  have stops : (view.role thread).stops = true := by rw [was]; rfl
  cases halt with
  | before _ _ _ noStop | closed _ _ _ noStop => simp [noStop] at stops
  | stopping stopper called pending up _ others =>
      have same : thread = stopper := by
        by_contra different
        simp [others thread different] at stops
      exact ⟨called, pending, up, same ▸ others⟩
  | joining stopper _ _ _ joins others =>
      by_cases same : thread = stopper
      · simp [← same, was] at joins
      · simp [others thread same] at stops

theorem Halt.join (halt : view.Halt) (was : view.role thread = .joining) :
    view.called = true ∧ view.returned = false ∧ view.run = false ∧
      ∀ other, other ≠ thread → (view.role other).stops = false := by
  have stops : (view.role thread).stops = true := by rw [was]; rfl
  cases halt with
  | before _ _ _ noStop | closed _ _ _ noStop => simp [noStop] at stops
  | joining stopper called pending down _ others =>
      have same : thread = stopper := by
        by_contra different
        simp [others thread different] at stops
      exact ⟨called, pending, down, same ▸ others⟩
  | stopping stopper _ _ _ stopping others =>
      by_cases same : thread = stopper
      · simp [← same, was] at stopping
      · simp [others thread same] at stops

theorem Halt.works (halt : view.Halt) (finished : Bool)
    (kept : view.finished = true → finished = true) : Halt { view with finished := finished } := by
  cases halt with
  | before early pending down noStop => exact .before early pending down noStop
  | stopping stopper called pending up stops others =>
      exact .stopping stopper called pending up stops others
  | joining stopper called pending down joins others =>
      exact .joining stopper called pending down joins others
  | closed called down ended noStop => exact .closed called down (kept ended) noStop

theorem Launch.works (launch : view.Launch) (finished : Bool) :
    Launch { view with finished := finished } := by
  cases launch with
  | fresh fresh free noStart => exact .fresh fresh free noStart
  | launching starter free starts others => exact .launching starter free starts others
  | launched mine noStart => exact .launched mine noStart
  | joined returned noStart => exact .joined returned noStart

variable [DecidableEq Thread]

theorem Launch.goes (launch : view.Launch) {role : Role} (was : view.role thread ≠ .launching)
    (becomes : role ≠ .launching) (roles : next.role = Function.update view.role thread role)
    (worker : next.worker = view.worker) (generation : next.generation = view.generation)
    (returned : view.returned = true → next.returned = true) : next.Launch := by
  cases launch with
  | fresh fresh free noStart =>
      refine .fresh (generation.trans fresh) (worker.trans free) ?_
      rw [roles]
      exact Role.update_ne becomes fun other _ => noStart other
  | launching starter free starts others =>
      have different : starter ≠ thread := by
        rintro rfl
        exact was starts
      refine .launching starter (worker.trans free) ?_ fun other apart => ?_
      · simpa [roles, different] using starts
      · rw [roles]
        exact after_update (· ≠ Role.launching) becomes fun _ => others other apart
  | launched mine noStart =>
      refine .launched (worker.trans mine) ?_
      rw [roles]
      exact Role.update_ne becomes fun other _ => noStart other
  | joined back noStart =>
      refine .joined (returned back) ?_
      rw [roles]
      exact Role.update_ne becomes fun other _ => noStart other

/-- The compare-exchange of `ensure_running` succeeds. -/
theorem Launch.started (free : view.worker = none)
    (noStart : ∀ thread, view.role thread ≠ .launching)
    (roles : next.role = Function.update view.role thread .launching)
    (worker : next.worker = view.worker) : next.Launch := by
  refine .launching thread (worker.trans free) (by simp [roles]) fun other different => ?_
  simpa [roles, different] using noStart other

omit [DecidableEq Thread] in
theorem Launch.launches (launch : view.Launch) (was : view.role thread = .launching)
    (roles : next.role = view.role) (worker : next.worker = view.worker) : next.Launch := by
  obtain ⟨free, others⟩ := launch.starter was
  exact .launching thread (worker.trans free) (roles ▸ was) (roles ▸ others)

theorem Launch.assigns (launch : view.Launch) (was : view.role thread = .launching)
    (roles : next.role = Function.update view.role thread .calling)
    (worker : next.worker = some 0) : next.Launch := by
  obtain ⟨_, others⟩ := launch.starter was
  refine .launched worker ?_
  rw [roles]
  exact Role.update_ne (by simp) others

theorem Launch.joins (launch : view.Launch) {id : Nat} (held : view.worker = some id)
    (roles : next.role = Function.update view.role thread .idle)
    (returned : next.returned = true) : next.Launch := by
  have noStart : ∀ other, view.role other ≠ .launching := by
    cases launch with
    | fresh _ free | launching _ free => simp [held] at free
    | launched _ noStart | joined _ noStart => exact noStart
  refine .joined returned ?_
  rw [roles]
  exact Role.update_ne (by simp) fun other _ => noStart other

theorem Halt.goes (halt : view.Halt) {role : Role} (was : (view.role thread).stops = false)
    (becomes : role.stops = false) (launches : role = .launching → view.role thread = .launching)
    (roles : next.role = Function.update view.role thread role)
    (same : next.generation = view.generation ∧ next.worker = view.worker ∨
      view.role thread = .launching)
    (called : next.called = view.called) (returned : next.returned = view.returned)
    (run : next.run = view.run) (finished : view.finished = true → next.finished = true) :
    next.Halt := by
  have kept : ∀ stopper, (view.role stopper).stops = true →
      next.role stopper = view.role stopper := by
    intro stopper stops
    have different : stopper ≠ thread := by
      rintro rfl
      simp [was] at stops
    simp [roles, different]
  cases halt with
  | before early pending down noStop =>
      refine .before (called.trans early) (returned.trans pending) (fun off => ?_) ?_
      · obtain ⟨fresh, free, noStart⟩ := down (run.symm.trans off)
        obtain ⟨generation, worker⟩ := same.resolve_right (noStart thread)
        rw [roles]
        exact ⟨generation.trans fresh, worker.trans free,
          Role.update_ne (fun starts => noStart thread (launches starts)) fun other _ => noStart other⟩
      · rw [roles]
        exact fun other => after_update (Role.stops · = false) becomes fun _ => noStop other
  | stopping stopper already pending up stops others =>
      refine .stopping stopper (called.trans already) (returned.trans pending) (run.trans up)
        ((kept stopper (by rw [stops]; rfl)).trans stops) ?_
      rw [roles]
      exact fun other apart =>
        after_update (Role.stops · = false) becomes fun _ => others other apart
  | joining stopper already pending down joins others =>
      refine .joining stopper (called.trans already) (returned.trans pending) (run.trans down)
        ((kept stopper (by rw [joins]; rfl)).trans joins) ?_
      rw [roles]
      exact fun other apart =>
        after_update (Role.stops · = false) becomes fun _ => others other apart
  | closed already down ended noStop =>
      refine .closed (called.trans already) (run.trans down) (finished ended) ?_
      rw [roles]
      exact fun other => after_update (Role.stops · = false) becomes fun _ => noStop other

theorem Halt.starts (halt : view.Halt) (early : view.called = false)
    (roles : next.role = Function.update view.role thread .launching)
    (called : next.called = view.called) (returned : next.returned = view.returned)
    (run : next.run = true) : next.Halt := by
  cases halt with
  | before _ pending _ noStop =>
      refine .before (called.trans early) (returned.trans pending) (fun down => ?_) ?_
      · simp [run] at down
      · rw [roles]
        exact fun other => after_update (Role.stops · = false) rfl fun _ => noStop other
  | stopping _ called | joining _ called | closed called => simp [early] at called

theorem Halt.calls (halt : view.Halt) (early : view.called = false) (up : view.run = true)
    (roles : next.role = Function.update view.role thread .stopping)
    (called : next.called = true) (returned : next.returned = view.returned)
    (run : next.run = view.run) : next.Halt := by
  cases halt with
  | before _ pending _ noStop =>
      refine .stopping thread called (returned.trans pending) (run.trans up) (by simp [roles]) ?_
      intro other different
      simpa [roles, different] using noStop other
  | stopping _ called | joining _ called | closed called => simp [early] at called

theorem Halt.stops (halt : view.Halt) (was : view.role thread = .stopping)
    (roles : next.role = Function.update view.role thread .joining)
    (called : next.called = view.called) (returned : next.returned = view.returned)
    (run : next.run = false) : next.Halt := by
  obtain ⟨already, pending, _, others⟩ := halt.stop was
  refine .joining thread (called.trans already) (returned.trans pending) run (by simp [roles]) ?_
  intro other different
  simpa [roles, different] using others other different

theorem Halt.joins (halt : view.Halt) (was : view.role thread = .joining)
    (roles : next.role = Function.update view.role thread .idle)
    (called : next.called = view.called) (run : next.run = view.run)
    (finished : next.finished = true) : next.Halt := by
  obtain ⟨already, _, down, others⟩ := halt.join was
  refine .closed (called.trans already) (run.trans down) finished ?_
  rw [roles]
  exact fun other => after_update (Role.stops · = false) rfl (others other)

end LifeView

namespace LogEngine

def oneShutdown (trace : List (EngineEvent Thread)) (state : LogEngine list Thread) :
    EngineAction Thread → Prop
  | .enqueue _ => trace.any EngineEvent.isShutdownCalled = false
  | .shutdown _ => trace.any EngineEvent.isShutdownCalled = false ∧ state.run = true
  | _ => True

/-- The engine is not started again once `shutdown` has been called, nothing is queued after
the last `pop` of the worker, and `shutdown` finds `worker_` joinable. -/
def drainsLast (trace : List (EngineEvent Thread)) (state : LogEngine list Thread) :
    EngineAction Thread → Prop
  | .client thread _ =>
      ((state.clients thread).ensuring = true → state.run = false →
        trace.any EngineEvent.isShutdownCalled = false) ∧
      ((state.clients thread).exchanging = true →
        ∀ id, id < state.spawned → (state.workers id).emptied = false) ∧
      ((state.clients thread).role = .joining → state.worker ≠ none)
  | _ => True

def Stranded (state : AtomicEngine Thread) : Prop :=
  0 < state.spawned ∧ (state.workers 0).emptied = true ∧
    ∃ thread, (state.clients thread).held ≠ none

structure WindOk (trace : List (EngineEvent Thread)) (state : AtomicEngine Thread) : Prop where
  launch : (state.lifeView trace).Launch
  halt : (state.lifeView trace).Halt
  stopSeen : (state.workers 0).stopSeen = true → state.run = false
  emptied : (state.workers 0).emptied = true → waitingRecords trace = []
  assigned : ∀ thread id, state.clients thread = .assignWorker id → id = 0

variable {trace events : List (EngineEvent Thread)} {state next : AtomicEngine Thread}
variable {poolSize : Nat} {thread : Thread}

theorem WorkerMove.emptied_stays {id : Nat} (moved : WorkerMove state id next events)
    (emptied : (state.workers id).emptied = true) : (next.workers id).emptied = true := by
  cases moved with
  | @wasReset pending => cases pending <;> simp [workerGoto, afterReset, WorkerPc.emptied]
  | resets | recyclesLast | finishes => simp [workerGoto, WorkerPc.emptied]
  | _ => simp_all [WorkerPc.emptied]

theorem Stranded.worker (stranded : Stranded state) {id : Nat}
    (moved : WorkerMove state id next events) : Stranded next := by
  obtain ⟨spawned, emptied, thread, held⟩ := stranded
  refine ⟨by rwa [moved.spawned_same], ?_, thread, by rwa [moved.clients_same]⟩
  by_cases mine : id = 0
  · subst mine
    exact moved.emptied_stays emptied
  · rwa [moved.others_same 0 (Ne.symm mine)]

variable [DecidableEq Thread]

/-- The record stays with its producer, which cannot exchange it any more. -/
theorem Stranded.client (stranded : Stranded state) {spurious : Bool}
    (permitted : drainsLast trace state (.client thread spurious))
    (moved : ClientMove poolSize state thread next events) : Stranded next := by
  obtain ⟨spawned, emptied, holder, held⟩ := stranded
  have late := permitted.2.1
  have workers : 0 < next.spawned ∧ next.workers 0 = state.workers 0 := by
    cases moved with
    | spawns here =>
        exact ⟨Nat.succ_pos _, Function.update_of_ne (Nat.ne_of_lt spawned) _ _⟩
    | _ => exact ⟨spawned, rfl⟩
  refine ⟨workers.1, by rwa [workers.2], holder, ?_⟩
  by_cases same : holder = thread
  · subst same
    cases moved with
    | constructs here | clears here => simp [goto, ClientPc.held, PushPc.held]
    | exchanges here =>
        have early := late (by rw [here]; rfl) 0 spawned
        simp [early] at emptied
    | terminates => exact held
    | _ => simp_all [ClientPc.held, PushPc.held]
  · rwa [moved.others_same holder same]

theorem Stranded.step (stranded : Stranded state) {action : EngineAction Thread}
    (permitted : drainsLast trace state action) (moved : Move poolSize state action next events) :
    Stranded next := by
  cases moved with
  | @enqueue thread here | @shutdown thread here =>
      obtain ⟨spawned, emptied, holder, held⟩ := stranded
      have different : holder ≠ thread := by
        rintro rfl
        simp [here, ClientPc.held] at held
      exact ⟨spawned, emptied, holder, by simpa [goto, different] using held⟩
  | client moved => exact stranded.client permitted moved
  | worker moved => exact stranded.worker moved

/-- A client's step seen by the start and the end of the run. -/
theorem lifeView_role {pc : AtomicClient} {role : Role}
    (clients : next.clients = Function.update state.clients thread pc) (becomes : pc.role = role) :
    (next.lifeView (trace ++ events)).role =
      Function.update (state.lifeView trace).role thread role := by
  simp only [lifeView, clients, ← becomes]
  exact reads_update ClientPc.role state.clients thread pc

theorem WindOk.client_step (ok : WindOk trace state) {pc : AtomicClient}
    (clients : next.clients = Function.update state.clients thread pc)
    (workers : next.workers = state.workers)
    (launch : (next.lifeView (trace ++ events)).Launch)
    (halt : (next.lifeView (trace ++ events)).Halt)
    (stopSeen : (state.workers 0).stopSeen = true → next.run = false)
    (emptied : (state.workers 0).emptied = true → waitingRecords (trace ++ events) = [])
    (assigned : ∀ id, pc ≠ .assignWorker id) : WindOk (trace ++ events) next where
  launch := launch
  halt := halt
  stopSeen := by rwa [workers]
  emptied := by rwa [workers]
  assigned := by
    intro other id here
    rw [clients] at here
    exact ok.assigned other id (before_update (· = ClientPc.assignWorker id) (assigned id) here)

theorem WindOk.goes (ok : WindOk trace state) {pc : AtomicClient}
    (clients : next.clients = Function.update state.clients thread pc)
    (was : (state.clients thread).role.plain = true) (becomes : pc.role.plain = true)
    (run : next.run = state.run) (generation : next.generation = state.generation)
    (worker : next.worker = state.worker) (workers : next.workers = state.workers)
    (notCalled : events.any EngineEvent.isShutdownCalled = false)
    (notReturned : events.any EngineEvent.isShutdownReturned = false)
    (emptied : (state.workers 0).emptied = true → waitingRecords (trace ++ events) = [])
    (assigned : ∀ id, pc ≠ .assignWorker id) : WindOk (trace ++ events) next := by
  have returned : (next.lifeView (trace ++ events)).returned = (state.lifeView trace).returned :=
    any_silent notReturned
  obtain ⟨wasCalm, wasOut⟩ := Role.plain_calm was
  obtain ⟨calm, out⟩ := Role.plain_calm becomes
  refine ok.client_step clients workers ?_ ?_ (by rw [run]; exact ok.stopSeen) emptied assigned
  · exact ok.launch.goes wasOut out (lifeView_role clients rfl) worker generation fun back =>
      returned.trans back
  · refine ok.halt.goes wasCalm calm (fun starts => absurd starts out) (lifeView_role clients rfl)
      (.inl ⟨generation, worker⟩) (any_silent notCalled) returned run fun finished => ?_
    rwa [lifeView, workers]

theorem WindOk.launches (ok : WindOk trace state) {pc : AtomicClient}
    (clients : next.clients = Function.update state.clients thread pc)
    (was : (state.clients thread).role = .launching) (becomes : pc.role = .launching)
    (run : next.run = state.run) (worker : next.worker = state.worker)
    (workers : next.workers = state.workers) (assigned : ∀ id, pc ≠ .assignWorker id) :
    WindOk (trace ++ []) next := by
  have wasLaunching : (state.lifeView trace).role thread = .launching := was
  have update : (next.lifeView (trace ++ [])).role =
      Function.update (state.lifeView trace).role thread .launching := lifeView_role clients becomes
  have roles : (next.lifeView (trace ++ [])).role = (state.lifeView trace).role := by
    rw [update, ← wasLaunching, Function.update_eq_self]
  refine ok.client_step clients workers (ok.launch.launches wasLaunching roles worker) ?_
    (by rw [run]; exact ok.stopSeen) (by simpa using ok.emptied) assigned
  refine ok.halt.goes (by rw [wasLaunching]; rfl) rfl (fun _ => wasLaunching) update
    (.inr wasLaunching) (any_silent rfl) (any_silent rfl) run fun finished => ?_
  rwa [lifeView, workers]

theorem WindOk.spawns (ok : WindOk trace state) (memory : MemoryOk poolSize trace state)
    (here : state.clients thread = .startWorker) :
    WindOk (trace ++ [])
      ({ state with
          workers := Function.update state.workers state.spawned (.loadRun none)
          spawned := state.spawned + 1 }.goto thread (.assignWorker state.spawned)) := by
  obtain ⟨place, placed⟩ := memory.placed
  have first : state.spawned = 0 :=
    placed.started.starterFirst thread (by simp [view, here, ClientPc.start])
  have launching : (state.lifeView trace).role thread = .launching := by
    simp [lifeView, here, ClientPc.role]
  have absent : state.workers 0 = .absent := placed.started.absent 0 (Nat.le_of_eq first)
  have roles : Function.update (fun other => (state.clients other).role) thread .launching =
      fun other => (state.clients other).role := role_same (by rw [here]; rfl)
  constructor
  case launch =>
    refine ok.launch.launches launching ?_ rfl
    simp only [lifeView, LogEngine.goto, reads_update ClientPc.role]
    exact roles
  case halt =>
    refine ok.halt.goes (by rw [launching]; rfl) (show Role.stops .launching = false from rfl)
      (fun _ => launching) ?_ (.inr launching) (any_silent rfl) (any_silent rfl) rfl
      fun finished => ?_
    · simp only [lifeView, LogEngine.goto, reads_update ClientPc.role]
      rfl
    · simp [lifeView, absent, WorkerPc.isFinished] at finished
  case stopSeen => simp [LogEngine.goto, first, WorkerPc.stopSeen]
  case emptied => simp [LogEngine.goto, first, WorkerPc.emptied]
  case assigned =>
    intro other id assigning
    rcases of_update (· = ClientPc.assignWorker id) assigning with ⟨-, now⟩ | before
    · obtain rfl : state.spawned = id := by simpa using now
      exact first
    · exact ok.assigned other id before

theorem WindOk.client (ok : WindOk trace state) (memory : MemoryOk poolSize trace state)
    {spurious : Bool} (permitted : drainsLast trace state (.client thread spurious))
    (moved : ClientMove poolSize state thread next events) : WindOk (trace ++ events) next := by
  obtain ⟨once, late, joinable⟩ := permitted
  cases moved with
  | fills here ran => exact absurd (atomic_push ran).2 (by simp)
  | acquires here ran => exact absurd (atomic_pop ran).2 (by simp)
  | alreadyRunning here | misses here | obtains here | constructs here | clears here | links here =>
      exact ok.goes rfl (by rw [here]; rfl) rfl rfl rfl rfl rfl rfl rfl (by simpa using ok.emptied)
        (by simp)
  | drops here | counts here =>
      exact ok.goes rfl (by rw [here]; rfl) rfl rfl rfl rfl rfl rfl rfl
        (by rw [waiting_silent rfl rfl]; exact ok.emptied) (by simp)
  | exchanges here =>
      refine ok.goes rfl (by rw [here]; rfl) rfl rfl rfl rfl rfl rfl rfl (fun emptied => ?_) (by simp)
      obtain ⟨place, placed⟩ := memory.placed
      have started : 0 < state.spawned := by
        by_contra none
        have absent : state.workers 0 = .absent := placed.started.absent 0 (Nat.not_lt.mp none)
        simp [absent, WorkerPc.emptied] at emptied
      have early := late (by rw [here]; rfl) 0 started
      simp [early] at emptied
  | starts here down =>
      have early : (state.lifeView trace).called = false := once (by rw [here]; rfl) down
      obtain ⟨fresh, free, noStart⟩ := ok.halt.unstarted early down
      have absent := memory.absent fresh
      exact ok.client_step rfl rfl (.started free noStart (lifeView_role rfl rfl) rfl)
        (ok.halt.starts early (lifeView_role rfl rfl) (any_silent rfl) (any_silent rfl) rfl)
        (by simp [absent, WorkerPc.stopSeen]) (by simpa using ok.emptied) (by simp)
  | allocates here =>
      exact ok.launches rfl (by rw [here]; rfl) (role_fillFrom _ _) rfl rfl rfl
        (fillFrom_assigns _ _)
  | filled here ran =>
      exact ok.launches rfl (by rw [here]; rfl) (role_fillFrom state _) rfl rfl rfl
        (fillFrom_assigns state _)
  | spawns here => exact ok.spawns memory here
  | assigns here free =>
      obtain rfl := ok.assigned thread _ here
      have launching : (state.lifeView trace).role thread = .launching := by
        simp [lifeView, here, ClientPc.role]
      exact ok.client_step rfl rfl (ok.launch.assigns launching (lifeView_role rfl rfl) rfl)
        (ok.halt.goes (by rw [launching]; rfl) rfl (by simp [ClientPc.role]) (lifeView_role rfl rfl)
          (.inr launching) (any_silent rfl) (any_silent rfl) rfl fun finished => finished)
        ok.stopSeen (by simpa using ok.emptied) (by simp)
  | terminates here taken =>
      have launching : (state.lifeView trace).role thread = .launching := by
        simp [lifeView, here, ClientPc.role]
      have free : state.worker = none := (ok.launch.starter launching).1
      simp [free] at taken
  | stops here up =>
      have stopping : (state.lifeView trace).role thread = .stopping := by
        simp [lifeView, here, ClientPc.role]
      exact ok.client_step rfl rfl
        (ok.launch.goes (by rw [stopping]; simp) (by simp [ClientPc.role]) (lifeView_role rfl rfl) rfl rfl
          fun back => (any_silent rfl).trans back)
        (ok.halt.stops stopping (lifeView_role rfl rfl) (any_silent rfl) (any_silent rfl) rfl)
        (fun _ => rfl) (by simpa using ok.emptied) (by simp)
  | stoppedBefore here down =>
      have stopping : (state.lifeView trace).role thread = .stopping := by
        simp [lifeView, here, ClientPc.role]
      have up : state.run = true := (ok.halt.stop stopping).2.2.1
      simp [up] at down
  | notJoinable here free => exact absurd free (joinable (by rw [here]; rfl))
  | @joins id here held done =>
      have joining : (state.lifeView trace).role thread = .joining := by
        simp [lifeView, here, ClientPc.role]
      obtain rfl : id = 0 := ok.launch.worker_zero (ok.halt.join joining).2.1 held
      have finished : (state.workers 0).isFinished = true := by rw [done]; rfl
      have returned : (trace ++ [EngineEvent.shutdownReturned thread]).any
          EngineEvent.isShutdownReturned = true := by simp [EngineEvent.isShutdownReturned]
      exact ok.client_step rfl rfl (ok.launch.joins held (lifeView_role rfl rfl) returned)
        (ok.halt.joins joining (lifeView_role rfl rfl) (any_silent rfl) rfl finished) ok.stopSeen
        (by rw [waiting_silent rfl rfl]; exact ok.emptied) (by simp)

omit [DecidableEq Thread] in
theorem WorkerMove.emptied_before {id : Nat} (moved : WorkerMove state id next events)
    (emptied : (next.workers id).emptied = true) :
    events = [] ∧ ((state.workers id).emptied = true ∨ ∃ pending pc queue,
      state.workers id = .pop true pending pc ∧ state.queue.popStep pc = (queue, .inr none)) := by
  cases moved with
  | drained here ran => exact ⟨rfl, .inr ⟨_, _, _, here, ran⟩⟩
  | resets here | wasReset here | recyclesLast here | finishes here =>
      exact ⟨rfl, .inl (by rw [here]; rfl)⟩
  | @takes drain pending => cases pending <;> simp [workerGoto, deliver, WorkerPc.emptied] at emptied
  | @written drain => cases drain <;> simp [workerGoto, WorkerPc.emptied] at emptied
  | _ => simp [workerGoto, WorkerPc.emptied] at emptied

omit [DecidableEq Thread] in
theorem WorkerMove.shutdown_silent {id : Nat} (moved : WorkerMove state id next events) :
    events.any EngineEvent.isShutdownCalled = false ∧
      events.any EngineEvent.isShutdownReturned = false := by
  cases moved <;> exact ⟨rfl, rfl⟩

omit [DecidableEq Thread] in
theorem WorkerMove.unfinished {id : Nat} (moved : WorkerMove state id next events) :
    (state.workers id).isFinished = false := by
  cases moved <;> simp_all [WorkerPc.isFinished]

omit [DecidableEq Thread] in
theorem WindOk.worker (ok : WindOk trace state) (memory : MemoryOk poolSize trace state) {id : Nat}
    (moved : WorkerMove state id next events) : WindOk (trace ++ events) next := by
  have present : state.workers id ≠ .absent := by
    cases moved <;> simp_all
  obtain rfl := memory.worker_zero present
  obtain ⟨notCalled, notReturned⟩ := moved.shutdown_silent
  have viewed : next.lifeView (trace ++ events) =
      { state.lifeView trace with finished := (next.workers 0).isFinished } := by
    rw [lifeView, any_silent notCalled, any_silent notReturned, moved.run_same,
      moved.generation_same, moved.worker_same, moved.clients_same]
    rfl
  constructor
  case launch =>
    rw [viewed]
    exact ok.launch.works _
  case halt =>
    rw [viewed]
    exact ok.halt.works _ fun finished => absurd finished (by simp [lifeView, moved.unfinished])
  case stopSeen =>
    intro seen
    rw [moved.run_same]
    exact (moved.stopSeen_before seen).elim ok.stopSeen fun down => down
  case emptied =>
    intro emptied
    obtain ⟨rfl, before | ⟨pending, pc, queue, here, ran⟩⟩ := moved.emptied_before emptied
    · simpa using ok.emptied before
    · simpa using memory.drained here ran
  case assigned =>
    rw [moved.clients_same]
    exact ok.assigned

theorem WindOk.step (ok : WindOk trace state) (memory : MemoryOk poolSize trace state)
    {action : EngineAction Thread} (once : oneShutdown trace state action)
    (permitted : drainsLast trace state action) (moved : Move poolSize state action next events) :
    WindOk (trace ++ events) next := by
  cases moved with
  | @enqueue thread here =>
      exact ok.goes rfl (by rw [here]; rfl) rfl rfl rfl rfl rfl rfl rfl
        (by rw [waiting_silent rfl rfl]; exact ok.emptied) (by simp)
  | @shutdown thread here =>
      obtain ⟨early, up⟩ := once
      have idle : (state.lifeView trace).role thread = .idle := by
        simp [lifeView, here, ClientPc.role]
      have called : (trace ++ [EngineEvent.shutdownCalled thread]).any
          EngineEvent.isShutdownCalled = true := by simp [EngineEvent.isShutdownCalled]
      exact ok.client_step rfl rfl
        (ok.launch.goes (by rw [idle]; simp) (by simp [ClientPc.role]) (lifeView_role rfl rfl) rfl rfl
          fun back => (any_silent rfl).trans back)
        (ok.halt.calls early up (lifeView_role rfl rfl) called (any_silent rfl) rfl) ok.stopSeen
        (by rw [waiting_silent rfl rfl]; exact ok.emptied) (by simp)
  | client moved => exact ok.client memory permitted moved
  | worker moved => exact ok.worker memory moved

omit [DecidableEq Thread] in
theorem WorkerMove.drains {id : Nat} (moved : WorkerMove state id next events)
    {pending : Option LogRecord} {pc : PopPc LogRecord}
    (here : state.workers id = .pop true pending pc)
    (null : (state.queue.popStep pc).2 = .inr none) : (next.workers id).emptied = true := by
  cases moved with
  | drained => simp [workerGoto, WorkerPc.emptied]
  | _ => simp_all

omit [DecidableEq Thread] in
/-- A push that has exchanged `tail_` has its record in the queue. -/
theorem MemoryOk.pushers_hold (memory : MemoryOk poolSize trace state) {pending : Option LogRecord}
    {pc : PopPc LogRecord} (here : state.workers 0 = .pop true pending pc)
    (empty : waitingRecords trace = []) (free : (state.clients thread).held = none) :
    (state.clients thread).pusher = none := by
  obtain ⟨place, placed⟩ := memory.placed
  have phase : QueueWorld.Phase ⟨state.queue, fun thread => (state.clients thread).pusher,
    (state.workers 0).consumer⟩ (waitingRecords trace) := placed.queue.phase
  rw [here, empty] at phase
  by_contra pushing
  cases client : state.clients thread with
  | push push =>
      cases push with
      | clearNext record | exchangeTail record => simp [client, ClientPc.held, PushPc.held] at free
      | linkPrev node prev =>
          have adjacent := (phase.1.window thread node prev (by simp [client, ClientPc.pusher])).1
          simp [MpscQueue.chain, List.adjacent_cons, List.not_adjacent_nil] at adjacent
  | _ => simp [client, ClientPc.pusher] at pushing

theorem WindOk.calm (ok : WindOk trace state) (memory : MemoryOk poolSize trace state)
    {action : EngineAction Thread} (permitted : drainsLast trace state action)
    (moved : Move poolSize state action next events) (safe : ¬Stranded state)
    (later : ¬Stranded next) : calm trace state action := by
  have spawned : state.workers 0 ≠ .absent → 0 < state.spawned := by
    obtain ⟨place, placed⟩ := memory.placed
    intro present
    by_contra none
    exact present (placed.started.absent 0 (Nat.not_lt.mp none))
  cases moved with
  | enqueue | shutdown => trivial
  | @client thread =>
      rw [LogEngine.calm]
      split
      · rename_i here
        intro down
        have early := permitted.1 (by rw [here]; rfl) down
        obtain ⟨fresh, _, noStart⟩ := ok.halt.unstarted early down
        exact ⟨fresh, fun other allocating =>
          noStart other (by simp [lifeView, allocating, ClientPc.role])⟩
      · rename_i record here
        by_contra resetting
        refine safe ⟨spawned ?_, ?_, thread, by simp [here, ClientPc.held]⟩
        · intro absent
          simp [absent, WorkerPc.consumer, ConsumerPc.resetting] at resetting
        · cases worker : state.workers 0 <;> simp_all [WorkerPc.consumer, ConsumerPc.resetting,
            WorkerPc.emptied]
      · trivial
  | @worker id _ _ _ moved =>
      rw [LogEngine.calm]
      split
      · rename_i pending pc here
        obtain rfl := memory.worker_zero (show state.workers id ≠ .absent by simp [here])
        intro null thread
        have emptied := moved.drains here null
        refine memory.pushers_hold here (memory.drained here (Prod.ext rfl null)) ?_
        by_contra holds
        refine later ⟨?_, emptied, thread, by rwa [moved.clients_same]⟩
        rw [moved.spawned_same]
        exact spawned (by simp [here])
      · trivial

omit [DecidableEq Thread] in
theorem WindOk.initial : WindOk [] (LogEngine.initial : AtomicEngine Thread) where
  launch := .fresh rfl rfl fun _ => by simp [lifeView, LogEngine.initial, ClientPc.role]
  halt := .before rfl rfl (fun _ => ⟨rfl, rfl, fun _ => by
    simp [lifeView, LogEngine.initial, ClientPc.role]⟩) fun _ => rfl
  stopSeen seen := by simp [LogEngine.initial, WorkerPc.stopSeen] at seen
  emptied emptied := by simp [LogEngine.initial, WorkerPc.emptied] at emptied
  assigned _ _ assigning := by simp [LogEngine.initial] at assigning

structure SafeOk (poolSize : Nat) (trace : List (EngineEvent Thread))
    (state : AtomicEngine Thread) : Prop where
  memory : MemoryOk poolSize trace state
  delivery : DeliveryOk trace state
  wind : WindOk trace state
  safe : ¬Stranded state

theorem SafeOk.step (ok : SafeOk poolSize trace state) {action : EngineAction Thread}
    (once : oneShutdown trace state action) (permitted : drainsLast trace state action)
    (moved : Move poolSize state action next events) :
    Stranded next ∨ SafeOk poolSize (trace ++ events) next := by
  by_cases stranded : Stranded next
  · exact .inl stranded
  · have calm := ok.wind.calm ok.memory permitted moved ok.safe stranded
    exact .inr ⟨ok.memory.step calm moved, ok.delivery.step ok.memory moved,
      ok.wind.step ok.memory once permitted moved, stranded⟩

theorem safe_ok
    (reached : (engineMachine (atomicFreeList LogRecord) Thread poolSize).Reaches
      (fun trace state action => oneShutdown trace state action ∧ drainsLast trace state action)
      trace state) : Stranded state ∨ SafeOk poolSize trace state := by
  refine reached.invariant (fun trace state => Stranded state ∨ SafeOk poolSize trace state)
    (.inr ⟨.initial, .initial, .initial, fun stranded => absurd stranded.1 (Nat.lt_irrefl 0)⟩) ?_
  rintro trace state action next events ok ⟨once, permitted⟩ stepped
  have moved := (step_move stepped).2
  rcases ok with stranded | ok
  · exact .inl (stranded.step permitted moved)
  · exact ok.step once permitted moved

omit [DecidableEq Thread] in
/-- Once `shutdown` has returned and no call is under way, the worker is done. -/
theorem SafeOk.quiescent (ok : SafeOk poolSize trace state)
    (returned : .shutdownReturned thread ∈ trace) (idle : ∀ thread, state.clients thread = .idle) :
    Quiescent trace state := by
  have seen : (state.lifeView trace).returned = true :=
    List.any_eq_true.mpr ⟨_, returned, rfl⟩
  have finished : (state.workers 0).isFinished = true := by
    cases ok.wind.halt with
    | before _ pending | stopping _ _ pending | joining _ _ pending => simp [seen] at pending
    | closed _ _ finished => exact finished
  have done : state.workers 0 = .finished := by
    cases worker : state.workers 0 <;> simp_all [WorkerPc.isFinished]
  exact ⟨idle, .inr done, ok.wind.emptied (by rw [done]; rfl)⟩

/-- When `shutdown` and all `enqueue` calls have returned, everything queued is written. -/
theorem none_stranded [Fintype Thread]
    (reached : (engineMachine (atomicFreeList LogRecord) Thread poolSize).Reaches
      (fun trace state action => oneShutdown trace state action ∧ drainsLast trace state action)
      trace state)
    (returned : .shutdownReturned thread ∈ trace) (idle : ∀ thread, state.clients thread = .idle) :
    state.written = state.enqueued ∧ waitingRecords trace = [] ∧
      state.queue.tail = state.queue.head ∧ state.queue.next state.queue.head = none := by
  have calls : CallsOk trace state := reached.invariant CallsOk .initial
    fun _ _ _ _ _ ok _ stepped => ok.step (step_move stepped).2
  rcases safe_ok reached with ⟨_, _, holder, held⟩ | ok
  · simp [idle, ClientPc.held] at held
  · have quiet := ok.quiescent returned idle
    exact ⟨calls.written_enqueued ok.delivery quiet, quiet.drained, ok.memory.empty_queue quiet⟩

section Decidable

variable (trace : List (EngineEvent Thread)) (state : LogEngine list Thread)
variable (action : EngineAction Thread)

instance : Decidable (oneShutdown trace state action) :=
  match action with
  | .enqueue _ => inferInstanceAs (Decidable (_ = false))
  | .shutdown _ => inferInstanceAs (Decidable (_ = false ∧ _ = true))
  | .client _ _ | .worker _ _ => .isTrue trivial

instance : Decidable (drainsLast trace state action) :=
  match action with
  | .client thread _ => inferInstanceAs (Decidable
      (((state.clients thread).ensuring = true → state.run = false →
        trace.any EngineEvent.isShutdownCalled = false) ∧
      ((state.clients thread).exchanging = true →
        ∀ id, id < state.spawned → (state.workers id).emptied = false) ∧
      ((state.clients thread).role = .joining → state.worker ≠ none)))
  | .enqueue _ | .shutdown _ | .worker _ _ => .isTrue trivial

end Decidable

def overlappingSchedule : List (EngineAction Bool) :=
  [EngineAction.enqueue false] ++ List.replicate 7 (EngineAction.client false false) ++
    [EngineAction.shutdown true, .client true false] ++
    List.replicate 5 (EngineAction.client false false) ++
    List.replicate 16 (EngineAction.worker 0 false) ++ [EngineAction.client true false]

theorem overlappingSchedule_runs :
    ((engineMachine (atomicFreeList LogRecord) Bool 2).exec
      (fun trace state action => oneShutdown trace state action ∧ drainsLast trace state action) []
      (engineMachine (atomicFreeList LogRecord) Bool 2).start overlappingSchedule).isSome = true := by
  decide +kernel

theorem none_stranded_sample :
    let trace := (Option.get _ overlappingSchedule_runs).1
    let state := (Option.get _ overlappingSchedule_runs).2
    enqueuedEnvelopes trace = [⟨false, 0⟩] ∧ state.written = state.enqueued ∧
      waitingRecords trace = [] := by
  have idle : ∀ thread, ((Option.get _ overlappingSchedule_runs).2.clients thread).role = .idle := by
    decide +kernel
  have returned : .shutdownReturned true ∈ (Option.get _ overlappingSchedule_runs).1 := by
    decide +kernel
  have facts := none_stranded (EventMachine.reaches_of_isSome overlappingSchedule_runs) returned
    fun thread => ClientPc.idle_of_role (idle thread)
  exact ⟨by decide +kernel, facts.1, facts.2.1⟩

def lateSchedule : List (EngineAction Bool) :=
  [EngineAction.enqueue false] ++
    List.replicate (kPoolSize + 5) (EngineAction.client false false) ++
    [EngineAction.shutdown true, .client true false] ++
    List.replicate 8 (EngineAction.worker 0 false) ++ [EngineAction.client true false] ++
    List.replicate 5 (EngineAction.client false false)

theorem late_runs :
    ((engineMachine (atomicFreeList LogRecord) Bool kPoolSize).exec oneShutdown []
      (engineMachine (atomicFreeList LogRecord) Bool kPoolSize).start lateSchedule).map
        (fun last => (last.1, (last.2.clients false).role, (last.2.clients true).role,
          last.2.enqueued, last.2.written)) =
      some ([.enqueueCalled ⟨false, 0⟩, .shutdownCalled true, .shutdownReturned true,
        .queued ⟨false, 0⟩ ⟨1, 1023⟩, .enqueued ⟨false, 0⟩], .idle, .idle, 1, 0) := by
  decide +kernel

/-- Every call has returned, and the accepted record stays in the queue. -/
theorem strands_late_record :
    ∃ trace state, (engineMachine (atomicFreeList LogRecord) Bool kPoolSize).Reaches oneShutdown
      trace state ∧ .shutdownReturned true ∈ trace ∧ (∀ thread, state.clients thread = .idle) ∧
        state.enqueued = 1 ∧ state.written = 0 ∧ waitingRecords trace = [⟨1, 1023⟩] := by
  have runs := late_runs
  rw [Option.map_eq_some_iff] at runs
  obtain ⟨⟨trace, state⟩, ran, last⟩ := runs
  simp only [Prod.mk.injEq] at last
  obtain ⟨rfl, first, second, enqueued, written⟩ := last
  refine ⟨_, state, EventMachine.reaches_of_exec lateSchedule ran, by decide, ?_, enqueued, written,
    by decide⟩
  intro thread
  cases thread with
  | false => exact ClientPc.idle_of_role first
  | true => exact ClientPc.idle_of_role second

end LogEngine

end MyServer
