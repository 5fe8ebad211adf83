import MyServer.LogEngineRest

/-!
Starts and stops of the engine while `enqueue` and `shutdown` calls overlap in any way. The
flag `run_` does not tell whether a start or a join is still under way, so a start and a
`shutdown` that returns early are safe only when nothing of the last run is left.
-/

namespace MyServer

variable {Thread : Type} {list : FreeListSteps LogRecord}

namespace ClientPc

def allocating : ClientPc list → Bool
  | .allocatePool => true
  | _ => false

def assigning : ClientPc list → Option Nat
  | .assignWorker id => some id
  | _ => none

def carried : ClientPc list → Option LogRecord
  | .construct record => some record
  | .push pc => pc.held
  | _ => none

end ClientPc

def WorkerPc.alive : WorkerPc list → Bool
  | .absent | .finished => false
  | _ => true

theorem WorkerPc.finished_of_ended {pc : WorkerPc list} (started : pc ≠ .absent)
    (ended : pc.alive = false) : pc.isFinished = true := by
  cases pc with
  | absent => exact absurd rfl started
  | finished => rfl
  | _ => simp [WorkerPc.alive] at ended

@[ext]
structure StartView (Thread : Type) where
  run : Bool
  worker : Option Nat
  role : Thread → Role
  assigning : Thread → Option Nat
  alive : Nat → Bool

namespace StartView

structure Joins (view : StartView Thread) : Prop where
  up : view.run = true → ∀ thread, view.role thread ≠ .joining
  down : view.run = false → ∃ thread, view.role thread = .joining ∧
    ∀ other, other ≠ thread → view.role other ≠ .joining

inductive Ok (view : StartView Thread) : Prop
  | stopped (down : view.run = false) (free : view.worker = none)
      (noStart : ∀ thread, view.role thread ≠ .launching)
      (noStop : ∀ thread, view.role thread ≠ .joining)
      (rest : ∀ id, view.alive id = false)
  | launching (starter : Thread) (free : view.worker = none)
      (starts : view.role starter = .launching)
      (others : ∀ thread, thread ≠ starter → view.role thread ≠ .launching)
      (joins : view.Joins)
      (mine : ∀ id, view.alive id = true → view.assigning starter = some id)
  | running (id : Nat) (held : view.worker = some id)
      (noStart : ∀ thread, view.role thread ≠ .launching) (joins : view.Joins)
      (mine : ∀ other, view.alive other = true → other = id)

variable {view : StartView Thread} {thread : Thread}

/-- At most one thread executes `worker_loop`. -/
theorem Ok.one_worker (ok : view.Ok) (left right : Nat) (first : view.alive left = true)
    (second : view.alive right = true) : left = right := by
  cases ok with
  | stopped _ _ _ _ rest => simp [rest] at first
  | launching _ _ _ _ _ mine => exact Option.some.inj ((mine _ first).symm.trans (mine _ second))
  | running _ _ _ _ mine => rw [mine _ first, mine _ second]

theorem Ok.launch (ok : view.Ok) (was : view.role thread = .launching) :
    view.worker = none ∧ (∀ other, other ≠ thread → view.role other ≠ .launching) ∧ view.Joins ∧
      ∀ id, view.alive id = true → view.assigning thread = some id := by
  cases ok with
  | stopped _ _ noStart => exact absurd was (noStart thread)
  | running _ _ noStart => exact absurd was (noStart thread)
  | launching starter free starts others joins mine =>
      have same : thread = starter := by
        by_contra different
        exact others thread different was
      subst same
      exact ⟨free, others, joins, mine⟩

/-- A stopped engine with no thread in `worker_.join()`. -/
theorem Ok.rests (ok : view.Ok) (down : view.run = false)
    (noStop : ∀ thread, view.role thread ≠ .joining) :
    (∀ id, view.alive id = false) ∧ ∀ thread, view.role thread ≠ .launching := by
  cases ok with
  | stopped _ _ noStart _ rest => exact ⟨rest, noStart⟩
  | launching _ _ _ _ joins | running _ _ _ joins =>
      obtain ⟨stopper, joining, _⟩ := joins.down down
      exact absurd joining (noStop stopper)

/-- The worker moves; it may finish. -/
theorem Ok.works (ok : view.Ok) {alive : Nat → Bool}
    (fewer : ∀ id, alive id = true → view.alive id = true) : Ok { view with alive := alive } := by
  cases ok with
  | stopped down free noStart noStop rest =>
      refine .stopped down free noStart noStop fun id => ?_
      by_contra lives
      have before := fewer id (by simpa using lives)
      simp [rest] at before
  | launching starter free starts others joins mine =>
      exact .launching starter free starts others ⟨joins.up, joins.down⟩ fun id lives =>
        mine id (fewer id lives)
  | running id held noStart joins mine =>
      exact .running id held noStart ⟨joins.up, joins.down⟩ fun other lives =>
        mine other (fewer other lives)

variable [DecidableEq Thread]

/-- The thread takes no part in a join, before the step and after it. -/
theorem Joins.goes (joins : view.Joins) {role : Role} (was : view.role thread ≠ .joining)
    (becomes : role ≠ .joining) {next : StartView Thread} (run : next.run = view.run)
    (roles : next.role = Function.update view.role thread role) : next.Joins := by
  constructor
  · intro up
    rw [roles]
    exact Role.update_ne becomes fun other _ => joins.up (run ▸ up) other
  · intro down
    obtain ⟨stopper, joining, alone⟩ := joins.down (run ▸ down)
    have different : stopper ≠ thread := by
      rintro rfl
      exact was joining
    rw [roles]
    refine ⟨stopper, by simpa [different] using joining, fun other apart => ?_⟩
    exact after_update (· ≠ Role.joining) becomes fun _ => alone other apart

/-- The thread takes no part in a start or a stop, before the step and after it. -/
theorem Ok.goes (ok : view.Ok) {role : Role}
    (was : view.role thread ≠ .launching ∧ view.role thread ≠ .joining)
    (becomes : role ≠ .launching ∧ role ≠ .joining) :
    Ok { view with
      role := Function.update view.role thread role
      assigning := Function.update view.assigning thread none } := by
  cases ok with
  | stopped down free noStart noStop rest =>
      exact .stopped down free (Role.update_ne becomes.1 fun other _ => noStart other)
        (Role.update_ne becomes.2 fun other _ => noStop other) rest
  | launching starter free starts others joins mine =>
      have different : starter ≠ thread := by
        rintro rfl
        exact was.1 starts
      refine .launching starter free (by simpa [different] using starts) (fun other apart => ?_)
        (joins.goes was.2 becomes.2 rfl rfl) fun id lives => ?_
      · exact after_update (· ≠ Role.launching) becomes.1 fun _ => others other apart
      · simpa [different] using mine id lives
  | running id held noStart joins mine =>
      exact .running id held (Role.update_ne becomes.1 fun other _ => noStart other)
        (joins.goes was.2 becomes.2 rfl rfl) mine

/-- The starting thread goes on, with its worker started or not. -/
theorem Ok.launches (ok : view.Ok) (was : view.role thread = .launching)
    (assigning : Option Nat) (alive : Nat → Bool)
    (mine : ∀ id, alive id = true → assigning = some id) :
    Ok { view with
      assigning := Function.update view.assigning thread assigning
      alive := alive } := by
  obtain ⟨free, others, joins, _⟩ := ok.launch was
  exact .launching thread free was others ⟨joins.up, joins.down⟩ fun id lives => by
    simpa using mine id lives

/-- The compare-exchange of `ensure_running` succeeds with nothing of the last run left. -/
theorem Ok.starts (ok : view.Ok) (free : view.worker = none)
    (noStart : ∀ other, view.role other ≠ .launching) :
    Ok { view with
      run := true
      role := Function.update view.role thread .launching
      assigning := Function.update view.assigning thread none } := by
  cases ok with
  | launching starter _ starts => exact absurd starts (noStart starter)
  | running _ held => simp [free] at held
  | stopped _ _ _ noStop rest =>
      refine .launching thread free (by simp) (fun other different => ?_)
        ⟨fun _ => Role.update_ne (by simp) fun other _ => noStop other, fun down => by simp at down⟩
        fun id lives => ?_
      · simpa [different] using noStart other
      · simp [rest] at lives

theorem Ok.assigns (ok : view.Ok) {id : Nat} (was : view.role thread = .launching)
    (assigns : view.assigning thread = some id) :
    Ok { view with
      worker := some id
      role := Function.update view.role thread .calling
      assigning := Function.update view.assigning thread none } := by
  obtain ⟨_, others, joins, mine⟩ := ok.launch was
  refine .running id rfl (Role.update_ne (by simp) others)
    (joins.goes (by simp [was]) (by simp) rfl rfl) fun other lives => ?_
  exact Option.some.inj ((mine other lives).symm.trans assigns)

/-- The compare-exchange of `stop_worker` succeeds. -/
theorem Ok.stops (ok : view.Ok) (was : view.role thread = .stopping) (up : view.run = true) :
    Ok { view with
      run := false
      role := Function.update view.role thread .joining
      assigning := Function.update view.assigning thread none } := by
  have joins : view.Joins → Joins { view with
      run := false
      role := Function.update view.role thread .joining
      assigning := Function.update view.assigning thread none } := by
    intro joins
    refine ⟨fun up => by simp at up, fun _ => ⟨thread, by simp, fun other different => ?_⟩⟩
    simpa [different] using joins.up up other
  cases ok with
  | stopped down => simp [up] at down
  | launching starter free starts others joined mine =>
      have different : starter ≠ thread := by
        rintro rfl
        simp [starts] at was
      refine .launching starter free (by simpa [different] using starts) (fun other apart => ?_)
        (joins joined) fun id lives => by simpa [different] using mine id lives
      exact after_update (· ≠ Role.launching) (by simp) fun _ => others other apart
  | running id held noStart joined mine =>
      exact .running id held (Role.update_ne (by simp) fun other _ => noStart other)
        (joins joined) mine

/-- The join of a worker that has returned. -/
theorem Ok.joins (ok : view.Ok) {id : Nat} (was : view.role thread = .joining)
    (held : view.worker = some id) (done : view.alive id = false) :
    Ok { view with
      worker := none
      role := Function.update view.role thread .idle
      assigning := Function.update view.assigning thread none } ∧
      (∀ other, view.alive other = false) ∧ ∀ other, view.role other ≠ .launching := by
  cases ok with
  | stopped _ free | launching _ free => simp [held] at free
  | running mine holds noStart joined only =>
      obtain rfl : mine = id := Option.some.inj (holds.symm.trans held)
      have down : view.run = false := by
        by_contra up
        exact joined.up (by simpa using up) thread was
      obtain ⟨stopper, _, alone⟩ := joined.down down
      obtain rfl : thread = stopper := by
        by_contra different
        exact alone thread different was
      have rest : ∀ other, view.alive other = false := by
        intro other
        by_contra lives
        have lives : view.alive other = true := by simpa using lives
        rw [only other lives] at lives
        simp [done] at lives
      exact ⟨.stopped down rfl (Role.update_ne (by simp) fun other _ => noStart other)
        (Role.update_ne (by simp) alone) rest, rest, noStart⟩

end StartView

namespace LogEngine

def startView (state : LogEngine list Thread) : StartView Thread where
  run := state.run
  worker := state.worker
  role := fun thread => (state.clients thread).role
  assigning := fun thread => (state.clients thread).assigning
  alive := fun id => (state.workers id).alive

/-- Nothing is left of the last run. -/
structure Rested (trace : List (EngineEvent Thread)) (state : LogEngine list Thread) : Prop where
  free : state.worker = none
  noStart : ∀ thread, (state.clients thread).role ≠ .launching
  noRecord : ∀ thread, (state.clients thread).carried = none
  drained : waitingRecords trace = []

def obtains (state : LogEngine list Thread) (thread : Thread) (spurious : Bool) : Bool :=
  match state.clients thread with
  | .acquire pc =>
      match (list.popStep state.freelist pc spurious).2 with
      | .inr (some _) => true
      | _ => false
  | _ => false

/-- A start begins with nothing left of the last run, no record is obtained before the new
array is there, and a `shutdown` neither returns while another one joins the worker nor
finds `worker_` not joinable. -/
def separate (trace : List (EngineEvent Thread)) (state : LogEngine list Thread) :
    EngineAction Thread → Prop
  | .client thread spurious =>
      ((state.clients thread).ensuring = true → state.run = false → state.Rested trace) ∧
      (state.obtains thread spurious = true → ∀ other, (state.clients other).allocating = false) ∧
      ((state.clients thread).role = .stopping → state.run = false →
        ∀ other, (state.clients other).role ≠ .joining) ∧
      ((state.clients thread).role = .joining → state.worker ≠ none)
  | _ => True

def PoolUnused (trace : List (EngineEvent Thread)) (state : LogEngine list Thread) : Prop :=
  waitingRecords trace = [] ∧ ∀ thread, (state.clients thread).carried = none

structure StartStopOk (trace : List (EngineEvent Thread)) (state : LogEngine list Thread) :
    Prop where
  phase : state.startView.Ok
  spawned : ∀ id, id < state.spawned ↔ state.workers id ≠ .absent
  unused : ∀ thread, (state.clients thread).allocating = true → PoolUnused trace state
  awake : state.terminated = false

variable {trace events : List (EngineEvent Thread)} {state next : LogEngine list Thread}
variable {poolSize id : Nat} {thread : Thread}

theorem WorkerMove.alive_before (moved : WorkerMove state id next events) :
    (state.workers id).alive = true := by
  cases moved <;> simp_all [WorkerPc.alive]

theorem WorkerMove.present_after (moved : WorkerMove state id next events) :
    next.workers id ≠ .absent := by
  cases moved with
  | @takes drain pending => cases pending <;> simp [workerGoto, deliver]
  | @written drain => cases drain <;> simp [workerGoto]
  | @wasReset pending => cases pending <;> simp [workerGoto, afterReset]
  | _ => simp [workerGoto]

theorem WorkerMove.not_queued (moved : WorkerMove state id next events) :
    queuedRecords events = [] := by
  cases moved <;> rfl

theorem WorkerMove.alive_fewer (moved : WorkerMove state id next events) (other : Nat)
    (lives : (next.workers other).alive = true) : (state.workers other).alive = true := by
  by_cases same : other = id
  · subst same
    exact moved.alive_before
  · rwa [moved.others_same other same] at lives

theorem PoolUnused.later (unused : PoolUnused trace state) (queued : queuedRecords events = [])
    (carried : ∀ thread, (next.clients thread).carried = none) :
    PoolUnused (trace ++ events) next := by
  refine ⟨?_, carried⟩
  have waiting := unused.1
  have queuedSame : queuedRecords (trace ++ events) = queuedRecords trace := by
    rw [queuedRecords, List.filterMap_append, ← queuedRecords, ← queuedRecords, queued,
      List.append_nil]
  rw [waitingRecords, List.drop_eq_nil_iff] at waiting ⊢
  rw [queuedSame, takenRecords, List.filterMap_append, List.length_append]
  exact waiting.trans (Nat.le_add_right _ _)

theorem StartStopOk.worker (ok : StartStopOk trace state)
    (moved : WorkerMove state id next events) : StartStopOk (trace ++ events) next := by
  constructor
  · have works := ok.phase.works moved.alive_fewer
    have same : { state.startView with alive := fun other => (next.workers other).alive } =
        next.startView := by
      simp only [startView, moved.run_same, moved.worker_same, moved.clients_same]
    exact same ▸ works
  · intro other
    rw [moved.spawned_same, ok.spawned]
    by_cases same : other = id
    · subst same
      exact iff_of_true (fun absent => by
        have lives := moved.alive_before
        simp [absent, WorkerPc.alive] at lives) moved.present_after
    · rw [moved.others_same other same]
  · intro thread allocating
    rw [moved.clients_same] at allocating
    have unused := ok.unused thread allocating
    refine unused.later moved.not_queued ?_
    rw [moved.clients_same]
    exact unused.2
  · have awake := ok.awake
    cases moved <;> exact awake

variable [DecidableEq Thread]

theorem startView_goto (state : LogEngine list Thread) (thread : Thread) (pc : ClientPc list) :
    (state.goto thread pc).startView = { state.startView with
      role := Function.update state.startView.role thread pc.role
      assigning := Function.update state.startView.assigning thread pc.assigning } := by
  have roles := Function.comp_update ClientPc.role state.clients thread pc
  have assigned := Function.comp_update ClientPc.assigning state.clients thread pc
  exact StartView.ext rfl rfl roles assigned rfl

omit [DecidableEq Thread] in
theorem fillFrom_start (state : LogEngine list Thread) (index : Nat) :
    (state.fillFrom poolSize index).role = .launching ∧
      (state.fillFrom poolSize index).assigning = none := by
  unfold fillFrom
  split <;> exact ⟨rfl, rfl⟩

theorem startView_launches (was : (state.clients thread).role = .launching) {pc : ClientPc list}
    (becomes : pc.role = .launching) :
    (state.goto thread pc).startView = { state.startView with
      assigning := Function.update state.startView.assigning thread pc.assigning } := by
  have roles : Function.update state.startView.role thread pc.role = state.startView.role := by
    rw [becomes, ← was]
    exact Function.update_eq_self thread _
  rw [startView_goto, roles]

/-- A step outside starts and stops. -/
theorem phase_goto (phase : state.startView.Ok) {pc : ClientPc list}
    (was : (state.clients thread).role.plain = true ∨ (state.clients thread).role = .stopping)
    (becomes : pc.role.plain = true ∨ pc.role = .stopping) (assigning : pc.assigning = none) :
    (state.goto thread pc).startView.Ok := by
  rw [startView_goto, assigning]
  refine phase.goes ?_ ?_
  · have before : state.startView.role thread = (state.clients thread).role := rfl
    rw [before]
    constructor <;> intro busy <;> simp [busy, Role.plain] at was
  · constructor <;> intro busy <;> simp [busy, Role.plain] at becomes

/-- The starting thread goes on before its worker is started. -/
theorem phase_fill (phase : state.startView.Ok) {pc : ClientPc list}
    (was : (state.clients thread).role = .launching)
    (unassigned : (state.clients thread).assigning = none)
    (becomes : pc.role = .launching) (assigning : pc.assigning = none) :
    (state.goto thread pc).startView.Ok := by
  rw [startView_launches was becomes, assigning]
  refine phase.launches was none state.startView.alive fun id lives => ?_
  have mine := (phase.launch was).2.2.2 id lives
  exact absurd (unassigned.symm.trans mine) (by simp)

theorem StartStopOk.client_phase (ok : StartStopOk trace state) {spurious : Bool}
    (permitted : separate trace state (.client thread spurious))
    (moved : ClientMove poolSize state thread next events) : next.startView.Ok := by
  obtain ⟨fresh, _, _, joinable⟩ := permitted
  have phase := ok.phase
  cases moved with
  | alreadyRunning here => exact phase_goto phase (.inl (by rw [here]; rfl)) (.inl rfl) rfl
  | starts here down =>
      have rested := fresh (by rw [here]; rfl) down
      rw [startView_goto]
      exact phase.starts rested.free rested.noStart
  | allocates here =>
      have before : ({ state with generation := state.generation + 1 }).startView.Ok := phase
      exact phase_fill before (by rw [here]; rfl) (by rw [here]; rfl) (fillFrom_start _ 0).1
        (fillFrom_start _ 0).2
  | @fills _ _ _ freelist _ here =>
      have before : ({ state with freelist }).startView.Ok := phase
      exact phase_fill before (by rw [here]; rfl) (by rw [here]; rfl) rfl rfl
  | @filled index _ _ freelist here =>
      have before : ({ state with freelist }).startView.Ok := phase
      exact phase_fill before (by rw [here]; rfl) (by rw [here]; rfl) (fillFrom_start _ _).1
        (fillFrom_start _ _).2
  | spawns here =>
      have was : (state.clients thread).role = .launching := by rw [here]; rfl
      have mine := (phase.launch was).2.2.2
      rw [startView_launches (by exact was) rfl]
      refine phase.launches was (some state.spawned) _ fun id lives => ?_
      by_cases new : id = state.spawned
      · rw [new]
      · have old : state.startView.assigning thread = some id :=
          mine id (by simpa [startView, Function.update_of_ne new] using lives)
        simp [startView, here, ClientPc.assigning] at old
  | assigns here free =>
      rw [startView_goto]
      exact phase.assigns (by simp [startView, here, ClientPc.role])
        (by simp [startView, here, ClientPc.assigning])
  | terminates here taken =>
      have was : state.startView.role thread = .launching := by simp [startView, here, ClientPc.role]
      have free := (phase.launch was).1
      simp [startView, taken] at free
  | @acquires _ _ freelist _ here =>
      have before : ({ state with freelist }).startView.Ok := phase
      exact phase_goto before (.inl (by rw [here]; rfl)) (.inl rfl) rfl
  | @misses _ _ freelist here =>
      have before : ({ state with freelist }).startView.Ok := phase
      exact phase_goto before (.inl (by rw [here]; rfl)) (.inl rfl) rfl
  | @obtains _ _ freelist _ here =>
      have before : ({ state with freelist }).startView.Ok := phase
      exact phase_goto before (.inl (by rw [here]; rfl)) (.inl rfl) rfl
  | drops here | counts here | constructs here | clears here | exchanges here | links here =>
      have goes (pc : ClientPc list) (plain : pc.role.plain = true)
          (unassigned : pc.assigning = none) :
          (state.goto thread pc).startView.Ok :=
        phase_goto phase (.inl (by rw [here]; rfl)) (.inl plain) unassigned
      exact goes _ rfl rfl
  | stops here up =>
      rw [startView_goto]
      exact phase.stops (by simp [startView, here, ClientPc.role]) up
  | stoppedBefore here => exact phase_goto phase (.inr (by rw [here]; rfl)) (.inl rfl) rfl
  | notJoinable here free => exact absurd free (joinable (by rw [here]; rfl))
  | joins here held done =>
      rw [startView_goto]
      exact (phase.joins (by simp [startView, here, ClientPc.role]) held
        (by simp [startView, done, WorkerPc.alive])).1

/-- How a thread can come to hold a record: it goes on with it, or `try_pop` returns it. -/
theorem ClientMove.carried_after (moved : ClientMove poolSize state thread next events)
    (empty : (state.clients thread).carried = none) :
    queuedRecords events = [] ∧ ((next.clients thread).carried = none ∨
      ∃ pc record, state.clients thread = .acquire pc ∧ next.clients thread = .construct record) := by
  cases moved with
  | @obtains pc _ _ record here => exact ⟨rfl, .inr ⟨pc, record, here, by simp [goto]⟩⟩
  | constructs here | clears here | exchanges here =>
      simp [here, ClientPc.carried, PushPc.held] at empty
  | terminates => exact ⟨rfl, .inl empty⟩
  | allocates | filled =>
      refine ⟨rfl, .inl ?_⟩
      simp only [goto, Function.update_self, fillFrom]
      split <;> rfl
  | _ => exact ⟨rfl, .inl (by simp [goto, finish, ClientPc.carried])⟩

theorem obtains_of_step {spurious : Bool} {pc : list.PopPc} {record : LogRecord}
    (stepped : state.clientStep poolSize thread spurious = some (next, events))
    (here : state.clients thread = .acquire pc) (after : next.clients thread = .construct record) :
    state.obtains thread spurious = true := by
  simp only [clientStep, here] at stepped
  simp only [obtains, here]
  split at stepped
  · rename_i ran
    cases stepped
    simp [goto] at after
  · rename_i ran
    cases stepped
    simp [goto] at after
  · rename_i ran
    rw [ran]

theorem ClientMove.allocating_after (moved : ClientMove poolSize state thread next events)
    (allocating : (next.clients thread).allocating = true) :
    (state.clients thread).ensuring = true ∧ state.run = false := by
  cases moved with
  | starts here down => exact ⟨by rw [here]; rfl, down⟩
  | terminates here => simp [here, ClientPc.allocating] at allocating
  | allocates | filled =>
      simp only [goto, Function.update_self, fillFrom] at allocating
      split at allocating <;> simp [ClientPc.allocating] at allocating
  | _ => simp [goto, finish, ClientPc.allocating] at allocating

theorem StartStopOk.client_unused (ok : StartStopOk trace state) {spurious : Bool}
    (permitted : separate trace state (.client thread spurious))
    (stepped : state.clientStep poolSize thread spurious = some (next, events))
    {starter : Thread} (allocating : (next.clients starter).allocating = true) :
    PoolUnused (trace ++ events) next := by
  have moved := client_move stepped
  obtain ⟨fresh, late, _, _⟩ := permitted
  have unused : PoolUnused trace state := by
    by_cases same : starter = thread
    · obtain ⟨ensuring, down⟩ := moved.allocating_after (same ▸ allocating)
      have rested := fresh ensuring down
      exact ⟨rested.drained, rested.noRecord⟩
    · rw [moved.others_same starter same] at allocating
      exact ok.unused starter allocating
  obtain ⟨queued, carried⟩ := moved.carried_after (unused.2 thread)
  refine unused.later queued fun other => ?_
  by_cases same : other = thread
  · subst same
    rcases carried with empty | ⟨pc, record, here, after⟩
    · exact empty
    · have waiting := late (obtains_of_step stepped here after) starter
      have different : starter ≠ other := by
        rintro rfl
        simp [after, ClientPc.allocating] at allocating
      rw [moved.others_same starter different, waiting] at allocating
      simp at allocating
  · rw [moved.others_same other same]
    exact unused.2 other

theorem ClientMove.spawned_after (moved : ClientMove poolSize state thread next events)
    (spawned : ∀ id, id < state.spawned ↔ state.workers id ≠ .absent) (id : Nat) :
    id < next.spawned ↔ next.workers id ≠ .absent := by
  cases moved with
  | spawns here =>
      by_cases new : id = state.spawned
      · simp [goto, new]
      · simp only [goto, Function.update_of_ne new, ← spawned id]
        omega
  | _ => exact spawned id

theorem StartStopOk.client (ok : StartStopOk trace state) {spurious : Bool}
    (permitted : separate trace state (.client thread spurious))
    (stepped : state.clientStep poolSize thread spurious = some (next, events)) :
    StartStopOk (trace ++ events) next := by
  have moved := client_move stepped
  refine ⟨ok.client_phase permitted moved, moved.spawned_after ok.spawned,
    fun starter => ok.client_unused permitted stepped, ?_⟩
  have awake := ok.awake
  cases moved with
  | terminates here taken =>
      have was : state.startView.role thread = .launching := by simp [startView, here, ClientPc.role]
      have free := (ok.phase.launch was).1
      simp [startView, taken] at free
  | _ => exact awake

/-- A thread begins a call. -/
theorem StartStopOk.calls (ok : StartStopOk trace state) {pc : ClientPc list}
    (here : state.clients thread = .idle) (becomes : pc = .ensureRunning ∨ pc = .stop)
    (queued : queuedRecords events = []) : StartStopOk (trace ++ events) (state.goto thread pc) := by
  refine ⟨phase_goto ok.phase (.inl (by rw [here]; rfl)) ?_ ?_, ok.spawned, ?_, ok.awake⟩
  · rcases becomes with rfl | rfl
    · exact .inl rfl
    · exact .inr rfl
  · rcases becomes with rfl | rfl <;> rfl
  · intro starter allocating
    have different : starter ≠ thread := by
      rintro rfl
      rcases becomes with rfl | rfl <;> simp [goto, ClientPc.allocating] at allocating
    have unused := ok.unused starter (by simpa [goto, different] using allocating)
    refine unused.later queued fun other => ?_
    by_cases same : other = thread
    · rcases becomes with rfl | rfl <;> simp [goto, same, ClientPc.carried]
    · simpa [goto, same] using unused.2 other

theorem StartStopOk.step (ok : StartStopOk trace state) {action : EngineAction Thread}
    (permitted : separate trace state action)
    (stepped : state.step poolSize action = some (next, events)) :
    StartStopOk (trace ++ events) next := by
  have moved := (step_move stepped).2
  cases moved with
  | enqueue here => exact ok.calls here (.inl rfl) rfl
  | shutdown here => exact ok.calls here (.inr rfl) rfl
  | client => exact ok.client permitted (by simpa [LogEngine.step, ok.awake] using stepped)
  | worker moved => exact ok.worker moved

omit [DecidableEq Thread] in
theorem StartStopOk.initial : StartStopOk [] (LogEngine.initial : LogEngine list Thread) where
  phase := .stopped rfl rfl (fun _ => by simp [startView, LogEngine.initial, ClientPc.role])
    (fun _ => by simp [startView, LogEngine.initial, ClientPc.role]) fun _ => rfl
  spawned id := by simp [LogEngine.initial]
  unused thread allocating := by simp [LogEngine.initial, ClientPc.allocating] at allocating
  awake := rfl

def AtRest (state : LogEngine list Thread) : Prop :=
  (∀ id, id < state.spawned → (state.workers id).isFinished = true) ∧
    ∀ thread, (state.clients thread).role ≠ .launching

omit [DecidableEq Thread] in
theorem WorkerMove.not_returned (moved : WorkerMove state id next events) :
    EngineEvent.shutdownReturned thread ∉ events := by
  cases moved <;> simp

theorem StartStopOk.returns (ok : StartStopOk trace state) {action : EngineAction Thread}
    (permitted : separate trace state action)
    (stepped : state.step poolSize action = some (next, events))
    (returned : EngineEvent.shutdownReturned thread ∈ events) : AtRest next := by
  have phase := ok.phase
  have moved := (step_move stepped).2
  cases moved with
  | worker moved => exact absurd returned moved.not_returned
  | enqueue | shutdown => simp at returned
  | @client mover _ _ _ moved =>
      obtain ⟨_, _, alone, joinable⟩ := permitted
      have idle (rest : ∀ id, state.startView.alive id = false)
          (noStart : ∀ other, state.startView.role other ≠ .launching) :
          AtRest (state.goto mover .idle) := by
        refine ⟨fun id started => WorkerPc.finished_of_ended ((ok.spawned id).1 started) (rest id),
          fun other => ?_⟩
        by_cases same : other = mover
        · simp [goto, same, ClientPc.role]
        · simpa [goto, same, startView] using noStart other
      cases moved with
      | stoppedBefore here down =>
          obtain ⟨rest, noStart⟩ := phase.rests down (alone (by rw [here]; rfl) down)
          exact idle rest noStart
      | notJoinable here free => exact absurd free (joinable (by rw [here]; rfl))
      | joins here held done =>
          have was : state.startView.role mover = .joining := by
            simp [startView, here, ClientPc.role]
          obtain ⟨_, rest, noStart⟩ := phase.joins was held (by simp [startView, done, WorkerPc.alive])
          exact idle rest noStart
      | _ => simp at returned

/-- One worker at a time, `worker_` joined before it is assigned again, the array replaced
only when nothing uses it, and `shutdown` returns to an engine at rest. -/
theorem start_stop_safe
    (reached : (engineMachine list Thread poolSize).Reaches separate trace state) :
    (∀ left right, (state.workers left).alive = true → (state.workers right).alive = true →
      left = right) ∧
    state.terminated = false ∧
    (∀ thread, (state.clients thread).assigning ≠ none → state.worker = none) ∧
    (∀ thread, (state.clients thread).allocating = true →
      PoolUnused trace state ∧ ∀ id, (state.workers id).alive = false) ∧
    ∀ action next events thread, separate trace state action →
      state.step poolSize action = some (next, events) →
      .shutdownReturned thread ∈ events → AtRest next := by
  have ok := reached.invariant StartStopOk .initial fun _ _ _ _ _ ok permitted stepped =>
    ok.step permitted stepped
  refine ⟨ok.phase.one_worker, ok.awake, fun thread assigning => ?_, fun thread allocating => ?_,
    fun _ _ _ _ permitted stepped returned => ok.returns permitted stepped returned⟩
  · have was : state.startView.role thread = .launching := by
      cases here : state.clients thread <;> simp_all [startView, ClientPc.role, ClientPc.assigning]
    exact (ok.phase.launch was).1
  · have was : state.startView.role thread = .launching ∧ state.startView.assigning thread = none := by
      cases here : state.clients thread <;>
        simp_all [startView, ClientPc.role, ClientPc.assigning, ClientPc.allocating]
    refine ⟨ok.unused thread allocating, fun id => ?_⟩
    by_contra lives
    have mine := (ok.phase.launch was.1).2.2.2 id (Bool.eq_true_of_not_eq_false lives)
    simp [was.2] at mine

section Decidable

variable (trace : List (EngineEvent Thread)) (state : LogEngine list Thread)
variable (action : EngineAction Thread)

omit [DecidableEq Thread] in
theorem rested_iff : state.Rested trace ↔ state.worker = none ∧
    (∀ thread, (state.clients thread).role ≠ .launching) ∧
    (∀ thread, (state.clients thread).carried = none) ∧ waitingRecords trace = [] :=
  ⟨fun rested => ⟨rested.free, rested.noStart, rested.noRecord, rested.drained⟩,
    fun ⟨free, noStart, noRecord, drained⟩ => ⟨free, noStart, noRecord, drained⟩⟩

instance [Fintype Thread] : Decidable (state.Rested trace) :=
  decidable_of_iff' _ (rested_iff trace state)

instance [Fintype Thread] : Decidable (separate trace state action) :=
  match action with
  | .client thread spurious => inferInstanceAs (Decidable
      (((state.clients thread).ensuring = true → state.run = false → state.Rested trace) ∧
      (state.obtains thread spurious = true → ∀ other, (state.clients other).allocating = false) ∧
      ((state.clients thread).role = .stopping → state.run = false →
        ∀ other, (state.clients other).role ≠ .joining) ∧
      ((state.clients thread).role = .joining → state.worker ≠ none)))
  | .enqueue _ | .shutdown _ | .worker _ _ => .isTrue trivial

end Decidable

def twoRunsSchedule : List (EngineAction Bool) :=
  [EngineAction.enqueue false] ++ List.replicate 18 (EngineAction.client false false) ++
    [EngineAction.enqueue true, .client true false, .shutdown false, .client false false] ++
    List.replicate 8 (EngineAction.client true false) ++
    List.replicate 28 (EngineAction.worker 0 false) ++
    [EngineAction.client false false, .enqueue true] ++
    List.replicate 18 (EngineAction.client true false) ++
    [EngineAction.shutdown false, .client false false] ++
    List.replicate 18 (EngineAction.worker 1 false)

theorem twoRunsSchedule_runs :
    ((engineMachine (treiberFreeList LogRecord) Bool 2).exec separate []
      (engineMachine (treiberFreeList LogRecord) Bool 2).start twoRunsSchedule).isSome = true := by
  decide +kernel

theorem lastJoin_runs :
    ((Option.get _ twoRunsSchedule_runs).2.step 2 (.client false false)).isSome = true := by
  decide +kernel

theorem start_stop_safe_sample :
    let state := (Option.get _ twoRunsSchedule_runs).2
    let next := (Option.get _ lastJoin_runs).1
    state.terminated = false ∧ next.spawned = 2 ∧ AtRest next := by
  have safe := start_stop_safe (EventMachine.reaches_of_isSome twoRunsSchedule_runs)
  refine ⟨safe.2.1, by decide +kernel, ?_⟩
  exact safe.2.2.2.2 (.client false false) _ (Option.get _ lastJoin_runs).2 false (by decide +kernel)
    (Option.some_get lastJoin_runs).symm (by decide +kernel)

def overlapSchedule : List (EngineAction Bool) :=
  [EngineAction.enqueue false] ++ List.replicate 5 (EngineAction.client false false) ++
    [EngineAction.enqueue true] ++ List.replicate 9 (EngineAction.client true false) ++
    [EngineAction.shutdown true, .client true false, .client true false, .enqueue true, .client true false]

theorem overlapSchedule_runs :
    ((engineMachine (treiberFreeList LogRecord) Bool kPoolSize).exec EventMachine.anyAction []
      (engineMachine (treiberFreeList LogRecord) Bool kPoolSize).start overlapSchedule).isSome =
      true := by
  decide +kernel

/-- The array is about to be replaced with a record of it in the queue, and the `shutdown`
call has returned with the first start still under way. -/
theorem replaces_pool_in_use :
    let trace := (Option.get _ overlapSchedule_runs).1
    let state := (Option.get _ overlapSchedule_runs).2
    (engineMachine (treiberFreeList LogRecord) Bool kPoolSize).Reaches EventMachine.anyAction
        trace state ∧
      (state.clients true).allocating = true ∧ state.generation = 1 ∧
      waitingRecords trace = [⟨1, 0⟩] ∧ .shutdownReturned true ∈ trace ∧
      (state.clients false).role = .launching :=
  ⟨EventMachine.reaches_of_isSome overlapSchedule_runs, by decide +kernel, by decide +kernel,
    by decide +kernel, by decide +kernel, by decide +kernel⟩

end LogEngine

end MyServer
