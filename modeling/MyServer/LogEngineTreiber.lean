import MyServer.FreeListStack
import MyServer.LogEngineOwnership

/-!
The engine on the list as it is written. As long as no `try_pop` installs an old successor
and the run is calm, it simulates the engine on an atomic stack, step by step.
-/

namespace MyServer

variable {Thread : Type}

abbrev TreiberEngine (Thread : Type) := LogEngine (treiberFreeList LogRecord) Thread

def ClientPc.atomic : ClientPc (treiberFreeList LogRecord) → AtomicClient
  | .idle => .idle
  | .ensureRunning => .ensureRunning
  | .allocatePool => .allocatePool
  | .fillPool index pc => .fillPool index (FreePushPc.node pc)
  | .startWorker => .startWorker
  | .assignWorker id => .assignWorker id
  | .acquire _ => .acquire ()
  | .countDropped => .countDropped
  | .construct record => .construct record
  | .push pc => .push pc
  | .countEnqueued => .countEnqueued
  | .stop => .stop
  | .join => .join

def WorkerPc.atomic : WorkerPc (treiberFreeList LogRecord) → AtomicWorker
  | .absent => .absent
  | .loadRun pending => .loadRun pending
  | .checkEmpty pending pc => .checkEmpty pending pc
  | .pop drain pending pc => .pop drain pending pc
  | .recycle drain record old pc => .recycle drain record old (FreePushPc.node pc)
  | .submit drain record => .submit drain record
  | .destroy drain record => .destroy drain record
  | .countWritten drain record => .countWritten drain record
  | .reset pending pc => .reset pending pc
  | .recycleLast old pc => .recycleLast old (FreePushPc.node pc)
  | .finished => .finished

def ClientPc.freePush : ClientPc (treiberFreeList LogRecord) → Option (FreePushPc LogRecord)
  | .fillPool _ pc => some pc
  | _ => none

def WorkerPc.freePush : WorkerPc (treiberFreeList LogRecord) → Option (FreePushPc LogRecord)
  | .recycle _ _ _ pc | .recycleLast _ pc => some pc
  | _ => none

theorem ClientPc.call_atomic (client : ClientPc (treiberFreeList LogRecord)) :
    client.atomic.call = client.call := by
  cases client with
  | push push => cases push <;> rfl
  | _ => rfl

theorem ClientPc.stops_atomic (client : ClientPc (treiberFreeList LogRecord)) :
    client.atomic.stops = client.stops := by
  cases client <;> rfl

theorem ClientPc.ensuring_atomic (client : ClientPc (treiberFreeList LogRecord)) :
    client.atomic.ensuring = client.ensuring := by
  cases client <;> rfl

theorem ClientPc.fills_of_freePush {client : ClientPc (treiberFreeList LogRecord)}
    {push : FreePushPc LogRecord} (here : client.freePush = some push) :
    ∃ index, client = .fillPool index push := by
  cases client with
  | fillPool index pc =>
      cases here
      exact ⟨index, rfl⟩
  | _ => simp [ClientPc.freePush] at here

theorem WorkerPc.pushing_of_freePush {worker : WorkerPc (treiberFreeList LogRecord)}
    {push : FreePushPc LogRecord} (here : worker.freePush = some push) :
    worker.atomic.pushing = some push.node := by
  cases worker with
  | recycle drain record old pc | recycleLast old pc =>
      cases here
      rfl
  | _ => simp [WorkerPc.freePush] at here

namespace LogEngine

def atomically (state : TreiberEngine Thread) (stack : List LogRecord) : AtomicEngine Thread where
  run := state.run
  generation := state.generation
  freelist := stack
  queue := state.queue
  worker := state.worker
  dropped := state.dropped
  enqueued := state.enqueued
  written := state.written
  stored := state.stored
  clients := fun thread => (state.clients thread).atomic
  workers := fun id => (state.workers id).atomic
  spawned := state.spawned
  returned := state.returned
  terminated := state.terminated

structure Listed (state : TreiberEngine Thread) (stack : List LogRecord) : Prop where
  holds : FreeList.Holds state.freelist stack
  clients : ∀ thread pc, (state.clients thread).freePush = some pc →
    FreeList.PushSound state.freelist pc
  workers : ∀ id pc, (state.workers id).freePush = some pc →
    FreeList.PushSound state.freelist pc

/-- The thread's step is a compare-exchange of `try_pop` that installs an old successor. -/
def stalePop (state : TreiberEngine Thread) (thread : Thread) (spurious : Bool) : Bool :=
  match state.clients thread with
  | .acquire pc => FreeList.stale state.freelist spurious pc
  | _ => false

def freshPops (_ : List (EngineEvent Thread)) (state : TreiberEngine Thread) :
    EngineAction Thread → Prop
  | .client thread spurious => state.stalePop thread spurious = false
  | _ => True

instance (trace : List (EngineEvent Thread)) (state : TreiberEngine Thread)
    (action : EngineAction Thread) : Decidable (freshPops trace state action) :=
  match action with
  | .client thread spurious => inferInstanceAs (Decidable (state.stalePop thread spurious = false))
  | .enqueue _ | .shutdown _ | .worker _ _ => .isTrue trivial

theorem apart_atomic (trace : List (EngineEvent Thread)) (state : TreiberEngine Thread)
    (stack : List LogRecord) (action : EngineAction Thread) :
    apart trace (state.atomically stack) action ↔ apart trace state action := by
  cases action with
  | enqueue thread => simp only [apart, atomically, ClientPc.stops_atomic]
  | shutdown thread => simp only [apart, atomically, ClientPc.call_atomic]
  | client thread spurious | worker id spurious => rfl

theorem shutdownLast_atomic (trace : List (EngineEvent Thread)) (state : TreiberEngine Thread)
    (stack : List LogRecord) (action : EngineAction Thread) :
    shutdownLast trace (state.atomically stack) action ↔ shutdownLast trace state action := by
  cases action with
  | shutdown thread => simp only [shutdownLast, atomically, ClientPc.call_atomic]
  | enqueue thread | client thread spurious | worker id spurious => rfl

theorem startsFresh_atomic (trace : List (EngineEvent Thread)) (state : TreiberEngine Thread)
    (stack : List LogRecord) (action : EngineAction Thread) :
    startsFresh trace (state.atomically stack) action ↔ startsFresh trace state action := by
  cases action with
  | client thread spurious =>
      simp only [startsFresh, atomically, ClientPc.ensuring_atomic]
  | enqueue thread | shutdown thread | worker id spurious => rfl

variable {trace events : List (EngineEvent Thread)} {state next : TreiberEngine Thread}
variable {stack : List LogRecord} {poolSize id : Nat} {thread : Thread}

theorem atomic_workerGoto (state : TreiberEngine Thread) (id : Nat)
    (pc : WorkerPc (treiberFreeList LogRecord)) (stack : List LogRecord) :
    (state.workerGoto id pc).atomically stack =
      (state.atomically stack).workerGoto id pc.atomic := by
  simp only [atomically, workerGoto, reads_update WorkerPc.atomic]

variable [DecidableEq Thread]

theorem atomic_goto (state : TreiberEngine Thread) (thread : Thread)
    (pc : ClientPc (treiberFreeList LogRecord)) (stack : List LogRecord) :
    (state.goto thread pc).atomically stack = (state.atomically stack).goto thread pc.atomic := by
  simp only [atomically, goto, reads_update ClientPc.atomic]

theorem atomic_finish (state : TreiberEngine Thread) (thread : Thread) (stack : List LogRecord) :
    (state.finish thread).atomically stack = (state.atomically stack).finish thread := by
  simp only [atomically, finish, reads_update ClientPc.atomic]
  rfl

omit [DecidableEq Thread] in
theorem atomic_fillFrom (state : TreiberEngine Thread) (index : Nat) :
    (state.fillFrom poolSize index).atomic = (state.atomically stack).fillFrom poolSize index := by
  unfold fillFrom
  change ClientPc.atomic (if index < poolSize then _ else _) = if index < poolSize then _ else _
  split <;> rfl

omit [DecidableEq Thread] in
/-- The thread that fills the pool is the only one that pushes, and its record is not free. -/
theorem filling_alone (memory : MemoryOk poolSize trace (state.atomically stack))
    {pc : FreePushPc LogRecord} (here : (state.clients thread).freePush = some pc) :
    (∀ other, other ≠ thread → (state.clients other).freePush = none) ∧
      (∀ id, (state.workers id).freePush = none) ∧ pc.node ∉ stack := by
  obtain ⟨place, placed⟩ := memory.placed
  obtain ⟨index, client⟩ := ClientPc.fills_of_freePush here
  have fills : ((state.atomically stack).view (waitingRecords trace)).start thread =
      some (.fill index pc.node) := by
    change (state.clients thread).atomic.start = _
    rw [client]
    rfl
  have starting : ((state.atomically stack).view (waitingRecords trace)).start thread ≠ none := by
    simp [fills]
  refine ⟨fun other different => ?_, fun id => ?_, fun free => ?_⟩
  · have none := placed.started.others starting other different
    change (state.clients other).atomic.start = .none at none
    cases client : state.clients other <;>
      simp_all [ClientPc.freePush, ClientPc.atomic, ClientPc.start]
  · have spawned := placed.started.starterFirst thread starting
    have absent := placed.started.absent id (by omega)
    change (state.workers id).atomic = .absent at absent
    cases worker : state.workers id <;> simp_all [WorkerPc.freePush, WorkerPc.atomic]
  · obtain ⟨named, bound⟩ := placed.started.fillNode thread index pc.node fills
    have allocated := placed.started.allocated thread starting (by simp [fills])
    have inPool : ((state.atomically stack).view (waitingRecords trace)).InPool poolSize pc.node := by
      rw [named]
      exact ⟨by omega, rfl, bound⟩
    have unfilled : ((state.atomically stack).view (waitingRecords trace)).At poolSize .unfilled
        pc.node := ⟨thread, index, pc.node, fills, inPool, by rw [named]⟩
    exact absurd (placed.placed.unique .unfilled .free unfilled free) (by simp)

omit [DecidableEq Thread] in
/-- When the worker pushes, no thread does, and its record is not free. -/
theorem recycling_alone (memory : MemoryOk poolSize trace (state.atomically stack))
    {pc : FreePushPc LogRecord} (here : (state.workers id).freePush = some pc) :
    (∀ thread, (state.clients thread).freePush = none) ∧
      (∀ other, other ≠ id → (state.workers other).freePush = none) ∧ pc.node ∉ stack := by
  have present : ∀ other, (state.workers other).freePush ≠ none → other = 0 := by
    intro other pushes
    refine memory.worker_zero fun absent => pushes ?_
    change (state.workers other).atomic = .absent at absent
    cases worker : state.workers other <;> simp_all [WorkerPc.freePush, WorkerPc.atomic]
  obtain rfl := present id (by simp [here])
  obtain ⟨place, placed⟩ := memory.placed
  refine ⟨fun thread => ?_, fun other different => ?_, fun free => ?_⟩
  · by_contra pushes
    obtain ⟨other, fills⟩ := Option.ne_none_iff_exists'.mp pushes
    have none := (filling_alone memory fills).2.1 0
    simp [here] at none
  · by_contra pushes
    exact different (present other pushes)
  · have mine : ((state.atomically stack).view (waitingRecords trace)).At poolSize .recycling
        pc.node := by
      refine placed.queue.recycles pc.node ?_
      exact WorkerPc.pushing_of_freePush here
    exact absurd (placed.placed.unique .recycling .free mine free) (by simp)

def Matched (poolSize : Nat) (state : TreiberEngine Thread) (stack : List LogRecord)
    (action : EngineAction Thread) (next : TreiberEngine Thread)
    (events : List (EngineEvent Thread)) : Prop :=
  ∃ after, next.Listed after ∧
    (events = [] ∧ next.atomically after = state.atomically stack ∨
      (state.atomically stack).step poolSize action = some (next.atomically after, events))

theorem Listed.goes (listed : state.Listed stack) {pc : ClientPc (treiberFreeList LogRecord)}
    (clients : next.clients = Function.update state.clients thread pc)
    (freelist : next.freelist = state.freelist) (workers : next.workers = state.workers)
    (fresh : ∀ push, pc.freePush = some push → FreeList.PushSound state.freelist push) :
    next.Listed stack := by
  constructor
  · rw [freelist]
    exact listed.holds
  · intro other push here
    rw [freelist]
    rw [clients] at here
    rcases of_update (ClientPc.freePush · = some push) here with ⟨-, now⟩ | before
    · exact fresh push now
    · exact listed.clients other push before
  · rw [freelist, workers]
    exact listed.workers

omit [DecidableEq Thread] in
theorem fillFrom_sound (state : TreiberEngine Thread) (index : Nat) (list : FreeList LogRecord)
    (push : FreePushPc LogRecord) (here : (state.fillFrom poolSize index).freePush = some push) :
    list.PushSound push := by
  unfold fillFrom at here
  split at here
  · cases here
    trivial
  · simp [ClientPc.freePush] at here

/-- A step of the abstract client, from the step function's own branch. -/
theorem client_step {spurious : Bool} {abstract : AtomicEngine Thread}
    (alive : state.terminated = false)
    (stepped : (state.atomically stack).clientStep poolSize thread spurious =
      some (abstract, events)) :
    (state.atomically stack).step poolSize (.client thread spurious) = some (abstract, events) := by
  rw [step, if_neg (by simp [atomically, alive]), stepped]

/-- A client's step outside the free list is the abstract client's step. -/
theorem Listed.acts (listed : state.Listed stack) {spurious : Bool}
    {pc : ClientPc (treiberFreeList LogRecord)} (alive : state.terminated = false)
    (clients : next.clients = Function.update state.clients thread pc)
    (freelist : next.freelist = state.freelist) (workers : next.workers = state.workers)
    (noPush : pc.freePush = none)
    (stepped : (state.atomically stack).clientStep poolSize thread spurious =
      some (next.atomically stack, events)) :
    Matched poolSize state stack (.client thread spurious) next events := by
  refine ⟨stack, listed.goes clients freelist workers ?_, .inr (client_step alive stepped)⟩
  rw [noPush]
  nofun

omit [DecidableEq Thread] in
theorem atomic_at {pc : ClientPc (treiberFreeList LogRecord)} (here : state.clients thread = pc) :
    (state.atomically stack).clients thread = pc.atomic := congrArg ClientPc.atomic here

theorem goto_same {abstract : AtomicEngine Thread} {pc : AtomicClient}
    (here : abstract.clients thread = pc) : abstract.goto thread pc = abstract := by
  rw [goto, ← here, Function.update_eq_self]

omit [DecidableEq Thread] in
theorem Listed.pops (listed : state.Listed stack) {list : FreeList LogRecord}
    {rest : List LogRecord} (holds : list.Holds rest)
    (freeNext : list.freeNext = FreeList.freeNext state.freelist) :
    { state with freelist := list }.Listed rest := by
  have kept : ∀ push, FreeList.PushSound state.freelist push → list.PushSound push := by
    intro push sound
    cases push with
    | exchange node h => exact (congrFun freeNext node).trans sound
    | loadHead | writeNext => trivial
  exact ⟨holds, fun thread push here => kept push (listed.clients thread push here),
    fun id push here => kept push (listed.workers id push here)⟩

/-- A step of the free list that another thread's push does not notice. -/
theorem Listed.pushes {after : List LogRecord}
    {list : FreeList LogRecord} (holds : list.Holds after)
    {pc : ClientPc (treiberFreeList LogRecord)}
    (clients : next.clients = Function.update state.clients thread pc)
    (freelist : next.freelist = list) (workers : next.workers = state.workers)
    (alone : ∀ other, other ≠ thread → (state.clients other).freePush = none)
    (noWorker : ∀ id, (state.workers id).freePush = none)
    (sound : ∀ push, pc.freePush = some push → list.PushSound push) : next.Listed after := by
  constructor
  · rw [freelist]
    exact holds
  · intro other push here
    rw [freelist]
    rw [clients] at here
    by_cases same : other = thread
    · exact sound push (by simpa [same] using here)
    · have none := alone other same
      simp [same, none] at here
  · intro id push here
    rw [workers] at here
    simp [noWorker id] at here

/-- A step that obtains a record is not a spurious failure. -/
theorem obtains_real {pc : FreePopPc LogRecord} {spurious other : Bool} {list : FreeList LogRecord}
    {record : LogRecord} (here : state.clients thread = .acquire pc)
    (popped : FreeList.popStep state.freelist other pc = (list, .inr (some record)))
    (ran : state.clientStep poolSize thread spurious = some (next, events))
    (obtained : next.clients thread = .construct record) : spurious = false := by
  by_contra failing
  have failing : spurious = true := by simpa using failing
  obtain ⟨_, top, successor, rfl, _⟩ := FreeList.popStep_record popped
  have again : FreeList.popStep _ true (.exchange record successor) = _ :=
    FreeList.popStep_spurious top
  subst failing
  simp only [clientStep, here] at ran
  rw [show (treiberFreeList LogRecord).popStep state.freelist (.exchange record successor) true = _
    from again] at ran
  cases ran
  simp [goto] at obtained

theorem matched_client (listed : state.Listed stack) (alive : state.terminated = false)
    (memory : MemoryOk poolSize trace (state.atomically stack)) {spurious : Bool}
    (fresh : freshPops trace state (.client thread spurious))
    (stepped : state.clientStep poolSize thread spurious = some (next, events)) :
    Matched poolSize state stack (.client thread spurious) next events := by
  have moved := client_move stepped
  cases moved with
  | alreadyRunning here up =>
      refine listed.acts alive rfl rfl rfl rfl ?_
      simp only [clientStep, atomic_at here, atomic_goto]
      exact if_pos up
  | starts here down =>
      refine listed.acts alive rfl rfl rfl rfl ?_
      simp only [clientStep, atomic_at here, atomic_goto]
      exact if_neg (by simp [atomically, down])
  | allocates here =>
      refine ⟨stack, listed.goes rfl rfl rfl (fillFrom_sound _ 0 _), .inr (client_step alive ?_)⟩
      simp only [clientStep, atomic_at here, atomic_goto]
      rw [atomic_fillFrom]
      rfl
  | @fills index pc _ freelist later here ran =>
      obtain ⟨alone, noWorker, outside⟩ := filling_alone memory (by rw [here]; rfl)
      obtain ⟨holds, node, sound⟩ := listed.holds.pushes outside ran
      refine ⟨stack, Listed.pushes holds rfl rfl rfl alone noWorker ?_, .inl ⟨rfl, ?_⟩⟩
      · rintro push ⟨⟩
        exact sound
      · rw [atomic_goto]
        exact goto_same ((atomic_at here).trans (congrArg (ClientPc.fillPool index) node.symm))
  | @filled index pc _ freelist here ran =>
      obtain ⟨alone, noWorker, outside⟩ := filling_alone memory (by rw [here]; rfl)
      have pushed := listed.holds.pushed (listed.clients thread pc (by rw [here]; rfl)) ran
      refine ⟨_, Listed.pushes pushed rfl rfl rfl alone noWorker (fillFrom_sound _ _ _),
        .inr (client_step alive ?_)⟩
      simp only [clientStep, atomic_at here, atomic_goto]
      rw [atomic_fillFrom]
      rfl
  | spawns here =>
      refine ⟨stack, ⟨listed.holds, ?_, ?_⟩, .inr (client_step alive ?_)⟩
      · intro other push pushes
        exact listed.clients other push
          (before_update (ClientPc.freePush · = some push) (by simp [ClientPc.freePush]) pushes)
      · intro id push pushes
        exact listed.workers id push
          (before_update (WorkerPc.freePush · = some push) (by simp [WorkerPc.freePush]) pushes)
      · simp only [clientStep, atomic_at here, atomic_goto, ClientPc.atomic]
        simp only [atomically, reads_update WorkerPc.atomic]
        rfl
  | assigns here free =>
      refine listed.acts alive rfl rfl rfl rfl ?_
      have notJoinable : (state.atomically stack).worker = none := free
      simp only [clientStep, atomic_at here, atomic_goto, ClientPc.atomic, notJoinable]
      rfl
  | terminates here taken =>
      refine ⟨stack, ⟨listed.holds, listed.clients, listed.workers⟩, .inr (client_step alive ?_)⟩
      have joinable : (state.atomically stack).worker = some _ := taken
      simp only [clientStep, atomic_at here, ClientPc.atomic]
      split
      · rfl
      · rename_i free
        simp [joinable] at free
  | @acquires pc _ freelist later here ran =>
      obtain rfl := FreeList.popStep_continues ran
      refine ⟨stack, listed.goes rfl rfl rfl (by simp [ClientPc.freePush]), .inl ⟨rfl, ?_⟩⟩
      have there : (state.atomically stack).clients thread = .acquire () := atomic_at here
      rw [atomic_goto]
      exact goto_same there
  | @misses pc _ freelist here ran =>
      obtain ⟨rfl, rfl⟩ := listed.holds.misses ran
      refine listed.acts alive rfl rfl rfl rfl ?_
      simp only [clientStep, atomic_at here, atomic_goto, ClientPc.atomic]
      rfl
  | @obtains pc _ freelist record here popped =>
      obtain rfl := obtains_real here popped stepped (by simp [goto])
      simp only [freshPops, stalePop, here] at fresh
      obtain ⟨rest, rfl, holds, freeNext⟩ := listed.holds.pops fresh popped
      refine ⟨rest, (listed.pops holds freeNext).goes rfl rfl rfl (by simp [ClientPc.freePush]),
        .inr (client_step alive ?_)⟩
      simp only [clientStep, atomic_at here, atomic_goto, ClientPc.atomic]
      rfl
  | drops here | counts here =>
      refine listed.acts alive rfl rfl rfl rfl ?_
      simp only [clientStep, atomic_at here, atomic_finish]
      rfl
  | constructs here | clears here | exchanges here | links here =>
      refine listed.acts alive rfl rfl rfl rfl ?_
      simp only [clientStep, atomic_at here, atomic_goto]
      rfl
  | stops here up =>
      refine listed.acts alive rfl rfl rfl rfl ?_
      simp only [clientStep, atomic_at here, atomic_goto]
      exact if_pos up
  | stoppedBefore here down =>
      refine listed.acts alive rfl rfl rfl rfl ?_
      simp only [clientStep, atomic_at here, atomic_goto]
      exact if_neg (by simp [atomically, down])
  | notJoinable here free =>
      refine listed.acts alive rfl rfl rfl rfl ?_
      have notJoinable : (state.atomically stack).worker = none := free
      simp only [clientStep, atomic_at here, atomic_goto, ClientPc.atomic, notJoinable]
  | joins here mine done =>
      refine listed.acts alive rfl rfl rfl rfl ?_
      have joinable : (state.atomically stack).worker = some _ := mine
      have ended : (state.atomically stack).workers _ = .finished := congrArg WorkerPc.atomic done
      simp only [clientStep, atomic_at here, atomic_goto, ClientPc.atomic, joinable, ended]
      rfl

section Worker

omit [DecidableEq Thread]

theorem atomic_worker {pc : WorkerPc (treiberFreeList LogRecord)} (here : state.workers id = pc) :
    (state.atomically stack).workers id = pc.atomic := congrArg WorkerPc.atomic here

theorem workerGoto_same {abstract : AtomicEngine Thread} {pc : AtomicWorker}
    (here : abstract.workers id = pc) : abstract.workerGoto id pc = abstract := by
  rw [workerGoto, ← here, Function.update_eq_self]

theorem Listed.works (listed : state.Listed stack) {pc : WorkerPc (treiberFreeList LogRecord)}
    (workers : next.workers = Function.update state.workers id pc)
    (freelist : next.freelist = state.freelist) (clients : next.clients = state.clients)
    (fresh : ∀ push, pc.freePush = some push → FreeList.PushSound state.freelist push) :
    next.Listed stack := by
  constructor
  · rw [freelist]
    exact listed.holds
  · rw [freelist, clients]
    exact listed.clients
  · intro other push here
    rw [freelist]
    rw [workers] at here
    rcases of_update (WorkerPc.freePush · = some push) here with ⟨-, now⟩ | before
    · exact fresh push now
    · exact listed.workers other push before

/-- A step of the worker's push that no other push notices. -/
theorem Listed.recycles {after : List LogRecord} {list : FreeList LogRecord}
    (holds : list.Holds after) {pc : WorkerPc (treiberFreeList LogRecord)}
    (workers : next.workers = Function.update state.workers id pc)
    (freelist : next.freelist = list) (clients : next.clients = state.clients)
    (noClient : ∀ thread, (state.clients thread).freePush = none)
    (alone : ∀ other, other ≠ id → (state.workers other).freePush = none)
    (sound : ∀ push, pc.freePush = some push → list.PushSound push) : next.Listed after := by
  constructor
  · rw [freelist]
    exact holds
  · intro thread push here
    rw [clients] at here
    simp [noClient thread] at here
  · intro other push here
    rw [freelist]
    rw [workers] at here
    by_cases same : other = id
    · exact sound push (by simpa [same] using here)
    · have none := alone other same
      simp [same, none] at here

theorem worker_step [DecidableEq Thread] {spurious : Bool} {abstract : AtomicEngine Thread}
    (alive : state.terminated = false)
    (stepped : (state.atomically stack).workerStep id spurious = some (abstract, events)) :
    (state.atomically stack).step poolSize (.worker id spurious) = some (abstract, events) := by
  rw [step, if_neg (by simp [atomically, alive]), stepped]

/-- A step of the worker outside the free list is the abstract worker's step. -/
theorem Listed.runs [DecidableEq Thread] (listed : state.Listed stack) {spurious : Bool}
    {pc : WorkerPc (treiberFreeList LogRecord)} (alive : state.terminated = false)
    (workers : next.workers = Function.update state.workers id pc)
    (freelist : next.freelist = state.freelist) (clients : next.clients = state.clients)
    (noPush : pc.freePush = none)
    (stepped : (state.atomically stack).workerStep id spurious =
      some (next.atomically stack, events)) :
    Matched poolSize state stack (.worker id spurious) next events := by
  refine ⟨stack, listed.works workers freelist clients ?_, .inr (worker_step alive stepped)⟩
  rw [noPush]
  nofun

theorem atomic_deliver (drain : Bool) (pending : Option LogRecord) (record : LogRecord) :
    (deliver drain pending record : WorkerPc (treiberFreeList LogRecord)).atomic =
      deliver drain pending record := by
  cases pending <;> rfl

theorem deliver_sound (drain : Bool) (pending : Option LogRecord) (record : LogRecord)
    (list : FreeList LogRecord) (push : FreePushPc LogRecord)
    (here : (deliver drain pending record : WorkerPc (treiberFreeList LogRecord)).freePush =
      some push) : list.PushSound push := by
  cases pending with
  | none => simp [deliver, WorkerPc.freePush] at here
  | some old =>
      cases here
      trivial

theorem afterReset_sound (pending : Option LogRecord) (list : FreeList LogRecord)
    (push : FreePushPc LogRecord)
    (here : (afterReset pending : WorkerPc (treiberFreeList LogRecord)).freePush = some push) :
    list.PushSound push := by
  cases pending with
  | none => simp [afterReset, WorkerPc.freePush] at here
  | some old =>
      cases here
      trivial

theorem atomic_afterReset (pending : Option LogRecord) :
    (afterReset pending : WorkerPc (treiberFreeList LogRecord)).atomic = afterReset pending := by
  cases pending <;> rfl

end Worker

theorem matched_worker (listed : state.Listed stack) (alive : state.terminated = false)
    (memory : MemoryOk poolSize trace (state.atomically stack)) {spurious : Bool}
    (moved : WorkerMove state id next events) :
    Matched poolSize state stack (.worker id spurious) next events := by
  cases moved with
  | keepsRunning here up =>
      refine listed.runs alive rfl rfl rfl rfl ?_
      simp only [workerStep, atomic_worker here, atomic_workerGoto]
      exact if_pos up
  | seesStop here down =>
      refine listed.runs alive rfl rfl rfl rfl ?_
      simp only [workerStep, atomic_worker here, atomic_workerGoto]
      exact if_neg (by simp [atomically, down])
  | checks here ran | checked here ran =>
      refine listed.runs alive rfl rfl rfl rfl ?_
      have same : (state.atomically stack).queue.emptyStep _ = _ := ran
      simp only [workerStep, atomic_worker here, atomic_workerGoto, WorkerPc.atomic, same]
  | pops here ran | sleeps here ran | drained here ran =>
      refine listed.runs alive rfl rfl rfl rfl ?_
      have same : (state.atomically stack).queue.popStep _ = _ := ran
      simp only [workerStep, atomic_worker here, atomic_workerGoto, WorkerPc.atomic, same]
      rfl
  | takes here ran =>
      refine ⟨stack, listed.works rfl rfl rfl (deliver_sound _ _ _ _), .inr (worker_step alive ?_)⟩
      have same : (state.atomically stack).queue.popStep _ = _ := ran
      rw [atomic_workerGoto, atomic_deliver]
      simp only [workerStep, atomic_worker here, WorkerPc.atomic, same]
      rfl
  | @recycles drain record old pc _ freelist later here ran =>
      obtain ⟨noClient, alone, outside⟩ := recycling_alone memory (by rw [here]; rfl)
      obtain ⟨holds, node, sound⟩ := listed.holds.pushes outside ran
      refine ⟨stack, Listed.recycles holds rfl rfl rfl noClient alone ?_, .inl ⟨rfl, ?_⟩⟩
      · rintro push ⟨⟩
        exact sound
      · rw [atomic_workerGoto]
        exact workerGoto_same ((atomic_worker here).trans
          (congrArg (WorkerPc.recycle drain record old) node.symm))
  | @recycled drain record old pc _ freelist here ran =>
      obtain ⟨noClient, alone, outside⟩ := recycling_alone memory (by rw [here]; rfl)
      have pushed := listed.holds.pushed (listed.workers id pc (by rw [here]; rfl)) ran
      refine ⟨_, Listed.recycles pushed rfl rfl rfl noClient alone (by simp [WorkerPc.freePush]),
        .inr (worker_step alive ?_)⟩
      simp only [workerStep, atomic_worker here, atomic_workerGoto]
      rfl
  | submits here read =>
      refine listed.runs alive rfl rfl rfl rfl ?_
      have same : (state.atomically stack).stored _ = some _ := read
      simp only [workerStep, atomic_worker here, atomic_workerGoto, WorkerPc.atomic, same]
  | destroys here read =>
      refine listed.runs alive rfl rfl rfl rfl ?_
      have same : (state.atomically stack).stored _ = some _ := read
      simp only [workerStep, atomic_worker here, atomic_workerGoto, WorkerPc.atomic, same]
      rfl
  | @written drain record here =>
      refine listed.runs alive rfl rfl rfl ?_ ?_
      · cases drain <;> rfl
      · simp only [workerStep, atomic_worker here, atomic_workerGoto]
        cases drain <;> rfl
  | resets here ran =>
      refine listed.runs alive rfl rfl rfl rfl ?_
      have same : (state.atomically stack).queue.resetStep _ = _ := ran
      simp only [workerStep, atomic_worker here, atomic_workerGoto, WorkerPc.atomic, same]
      rfl
  | wasReset here ran =>
      refine ⟨stack, listed.works rfl rfl rfl (afterReset_sound _ _), .inr (worker_step alive ?_)⟩
      have same : (state.atomically stack).queue.resetStep _ = _ := ran
      rw [atomic_workerGoto, atomic_afterReset]
      simp only [workerStep, atomic_worker here, WorkerPc.atomic, same]
      rfl
  | @recyclesLast old pc _ freelist later here ran =>
      obtain ⟨noClient, alone, outside⟩ := recycling_alone memory (by rw [here]; rfl)
      obtain ⟨holds, node, sound⟩ := listed.holds.pushes outside ran
      refine ⟨stack, Listed.recycles holds rfl rfl rfl noClient alone ?_, .inl ⟨rfl, ?_⟩⟩
      · rintro push ⟨⟩
        exact sound
      · rw [atomic_workerGoto]
        exact workerGoto_same ((atomic_worker here).trans
          (congrArg (WorkerPc.recycleLast old) node.symm))
  | @finishes old pc _ freelist here ran =>
      obtain ⟨noClient, alone, outside⟩ := recycling_alone memory (by rw [here]; rfl)
      have pushed := listed.holds.pushed (listed.workers id pc (by rw [here]; rfl)) ran
      refine ⟨_, Listed.recycles pushed rfl rfl rfl noClient alone (by simp [WorkerPc.freePush]),
        .inr (worker_step alive ?_)⟩
      simp only [workerStep, atomic_worker here, atomic_workerGoto]
      rfl

theorem matched_step (listed : state.Listed stack)
    (memory : MemoryOk poolSize trace (state.atomically stack)) {action : EngineAction Thread}
    (fresh : freshPops trace state action)
    (stepped : state.step poolSize action = some (next, events)) :
    Matched poolSize state stack action next events := by
  obtain ⟨alive, moved⟩ := step_move stepped
  have awake : (state.atomically stack).terminated = false := alive
  cases moved with
  | enqueue here | shutdown here =>
      have idle : (state.atomically stack).clients _ = .idle := atomic_at here
      refine ⟨stack, listed.goes rfl rfl rfl (by simp [ClientPc.freePush]), .inr ?_⟩
      simp only [step, awake, idle, atomic_goto]
      rfl
  | @client thread spurious _ _ moved =>
      refine matched_client listed alive memory fresh ?_
      simpa [step, alive] using stepped
  | worker moved => exact matched_worker listed alive memory moved

/-- In a run whose pops are fresh and whose atomic counterpart is calm, the free list is a
stack and the engine on that stack has a run with the same events. -/
theorem treiber_simulates {guard : List (EngineEvent Thread) → TreiberEngine Thread →
      EngineAction Thread → Prop}
    (atomicGuard : List (EngineEvent Thread) → AtomicEngine Thread → EngineAction Thread → Prop)
    (transfers : ∀ trace state stack action, guard trace state action →
      atomicGuard trace (atomically state stack) action)
    (calmly : ∀ trace abstract, (engineMachine (atomicFreeList LogRecord) Thread poolSize).Reaches
      atomicGuard trace abstract → MemoryOk poolSize trace abstract)
    (reached : (engineMachine (treiberFreeList LogRecord) Thread poolSize).Reaches
      (fun trace state action => guard trace state action ∧ freshPops trace state action)
      trace state) :
    ∃ stack, state.Listed stack ∧ (engineMachine (atomicFreeList LogRecord) Thread poolSize).Reaches
      atomicGuard trace (state.atomically stack) := by
  obtain ⟨abstract, run, stack, listed, rfl⟩ : ∃ abstract,
      (engineMachine (atomicFreeList LogRecord) Thread poolSize).Reaches atomicGuard trace abstract ∧
        ∃ stack, state.Listed stack ∧ abstract = state.atomically stack := by
    refine reached.simulated (fun state abstract => ∃ stack, state.Listed stack ∧
      abstract = state.atomically stack) ?_ ?_
    · refine ⟨[], ⟨rfl, ?_, ?_⟩, rfl⟩
      · intro thread push here
        simp [engineMachine, LogEngine.initial, ClientPc.freePush] at here
      · intro id push here
        simp [engineMachine, LogEngine.initial, WorkerPc.freePush] at here
    · rintro trace state _ action next events run ⟨stack, listed, rfl⟩ ⟨permitted, fresh⟩ stepped
      obtain ⟨after, listedAfter, same | taken⟩ :=
        matched_step listed (calmly _ _ run) fresh stepped
      · exact .inl ⟨same.1, after, listedAfter, same.2.symm⟩
      · exact .inr ⟨action, _, transfers _ _ _ _ permitted, taken, after, listedAfter, rfl⟩
  exact ⟨stack, listed, run⟩

end LogEngine

end MyServer
