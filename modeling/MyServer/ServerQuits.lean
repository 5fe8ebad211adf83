import MyServer.RankedRuns
import MyServer.ServerWakeups
import MyServer.ServerWorkers

/-!
A stopped server quits. After a `shutdown` that every worker has heard, with no other call
under way, the workers come to their ends and every `wait` to its own: nothing can block but a
join, and a worker goes round without an event only while another one has yet to take what it
popped off `queuedApprox_`.
-/

namespace MyServer

variable {Thread : Type}

def LoopPc.holdsMutex : LoopPc Thread → Bool
  | .predQueued | .predStop | .block | .unlock => true
  | _ => false

namespace Server

def onlyWaits (_ : List (ServerEvent Thread)) (_ : Server Thread) : ServerAction Thread → Prop
  | .start _ | .shutdown _ _ | .trySubmit _ => False
  | _ => True

instance (trace : List (ServerEvent Thread)) (server : Server Thread)
    (action : ServerAction Thread) : Decidable (onlyWaits trace server action) :=
  match action with
  | .start _ | .shutdown _ _ | .trySubmit _ => .isFalse id
  | .wait _ | .caller _ _ | .worker _ _ | .wake _ => .isTrue trivial

variable {config : ServerConfig} {server next : Server Thread} {thread : Thread} {id : Nat}
variable {trace events : List (ServerEvent Thread)}

/-! Who holds the mutex, and whose handles there are. -/

structure Staffed (server : Server Thread) : Prop where
  mutex : ∀ id, server.wakeMutex = some id → (server.loops id).holdsMutex = true
  present : ∀ id, id < server.spawned → server.loops id ≠ .absent
  handles : ∀ handle ∈ server.workers, handle.id < server.spawned

theorem Staffed.initial : Staffed (Server.initial : Server Thread) where
  mutex := nofun
  present := nofun
  handles := nofun

theorem Staffed.frame (staffed : server.Staffed) (mutex : next.wakeMutex = server.wakeMutex)
    (holds : ∀ id, (server.loops id).holdsMutex = true → (next.loops id).holdsMutex = true)
    (present : ∀ id, server.loops id ≠ .absent → next.loops id ≠ .absent)
    (spawned : next.spawned = server.spawned)
    (handles : ∀ handle ∈ next.workers, handle.id < server.spawned) : next.Staffed where
  mutex := by
    intro id held
    rw [mutex] at held
    exact holds id (staffed.mutex id held)
  present := by
    intro id bound
    rw [spawned] at bound
    exact present id (staffed.present id bound)
  handles := by
    rw [spawned]
    exact handles

theorem Staffed.loop (staffed : server.Staffed) {pc : LoopPc Thread}
    (loops : next.loops = Function.update server.loops id pc) (present : pc ≠ .absent)
    (mutex : (next.wakeMutex = server.wakeMutex ∧
        ((server.loops id).holdsMutex = true → pc.holdsMutex = true)) ∨
      next.wakeMutex = none ∨ next.wakeMutex = some id ∧ pc.holdsMutex = true)
    (spawned : next.spawned = server.spawned) (workers : next.workers = server.workers) :
    next.Staffed where
  mutex := by
    intro other held
    rw [loops]
    rcases mutex with ⟨same, kept⟩ | free | ⟨taken, holds⟩
    · rw [same] at held
      have before := staffed.mutex other held
      by_cases here : other = id
      · subst here
        rw [Function.update_self]
        exact kept before
      · rwa [Function.update_of_ne here]
    · rw [free] at held
      cases held
    · rw [taken] at held
      cases held
      rwa [Function.update_self]
  present := by
    intro other bound
    rw [loops]
    rw [spawned] at bound
    exact after_update (· ≠ LoopPc.absent) present fun _ => staffed.present other bound
  handles := by
    rw [workers, spawned]
    exact staffed.handles

theorem decodeFrom_place (config : ServerConfig) (event : Submission Thread) (adapter : Nat) :
    decodeFrom config event adapter ≠ .absent ∧
      (decodeFrom config event adapter).holdsMutex = false := by
  unfold decodeFrom
  split <;> exact ⟨nofun, rfl⟩

theorem Staffed.worker (staffed : server.Staffed)
    (moved : LoopMove config server id next events) : next.Staffed := by
  cases moved with
  | locks here free => exact staffed.loop rfl nofun (.inr (.inr ⟨rfl, rfl⟩)) rfl rfl
  | blocks here | unlocks here => exact staffed.loop rfl nofun (.inr (.inl rfl)) rfl rfl
  | begins here | decodesNot here =>
      refine staffed.loop rfl (decodeFrom_place config _ _).1 (.inl ⟨rfl, ?_⟩) rfl rfl
      rw [here]
      nofun
  | seesQueued here | seesNone here | wakesToStop here | mayBlock here =>
      exact staffed.loop rfl nofun (.inl ⟨rfl, fun _ => rfl⟩) rfl rfl
  | _ here =>
      refine staffed.loop rfl nofun (.inl ⟨rfl, ?_⟩) rfl rfl
      rw [here]
      nofun

section Callers

variable [DecidableEq Thread]

theorem Staffed.spawns (staffed : server.Staffed)
    (absent : server.loops server.spawned = .absent) {pc : CallerPc} :
    Staffed ({ server with
      workers := server.workers ++ [WorkerHandle.mk server.spawned true]
      loops := Function.update server.loops server.spawned .tryPop
      spawned := server.spawned + 1 }.goto thread pc) where
  mutex := by
    intro id held
    have holds := staffed.mutex id held
    have different : id ≠ server.spawned := by
      rintro rfl
      rw [absent] at holds
      cases holds
    simpa [Server.goto, different] using holds
  present := by
    intro id (bound : id < server.spawned + 1)
    change Function.update server.loops server.spawned .tryPop id ≠ .absent
    by_cases same : id = server.spawned
    · rw [same, Function.update_self]
      simp
    · rw [Function.update_of_ne same]
      exact staffed.present id (by omega)
  handles := by
    intro handle inside
    change handle.id < server.spawned + 1
    rcases List.mem_append.mp inside with before | now
    · have bound := staffed.handles handle before
      omega
    · rw [List.mem_singleton.mp now]
      exact Nat.lt_succ_self _

theorem Staffed.caller (staffed : server.Staffed) (eventsOk : EventsOk trace server)
    (moved : CallerMove config server thread next events) : next.Staffed := by
  have absent := eventsOk.absent server.spawned (Nat.le_refl _)
  cases moved with
  | spawns here more => exact staffed.spawns absent
  | spawnsLast here last => exact staffed.spawns absent
  | joins here found done =>
      refine staffed.frame rfl (fun _ => id) (fun _ => id) rfl fun handle inside => ?_
      rcases List.mem_or_eq_of_mem_set inside with before | rfl
      · exact staffed.handles handle before
      · exact staffed.handles ⟨_, true⟩ (List.mem_of_getElem? found)
  | clearsWorkers here joined => exact staffed.frame rfl (fun _ => id) (fun _ => id) rfl nofun
  | notifiesAll here =>
      refine staffed.frame rfl (fun id holds => ?_) (fun id present => ?_) rfl staffed.handles
      · have awake : server.loops id ≠ .blocked := by
          intro blocked
          rw [blocked] at holds
          cases holds
        exact (congrArg LoopPc.holdsMutex (if_neg awake)).trans holds
      · change wakeAll server.loops id ≠ .absent
        unfold wakeAll
        split
        · nofun
        · exact present
  | @notifiesOne wakes here picked =>
      refine staffed.loop rfl nofun (.inl ⟨rfl, ?_⟩) rfl rfl
      rw [picked]
      nofun
  | _ => exact staffed.frame rfl (fun _ => id) (fun _ => id) rfl staffed.handles

theorem Staffed.step (staffed : server.Staffed) (eventsOk : EventsOk trace server)
    {action : ServerAction Thread} (moved : Move config server action next events) :
    next.Staffed := by
  cases moved with
  | call here entry => exact staffed.frame rfl (fun _ => id) (fun _ => id) rfl staffed.handles
  | caller moved => exact staffed.caller eventsOk moved
  | worker moved => exact staffed.worker moved
  | wake here =>
      refine staffed.loop rfl nofun (.inl ⟨rfl, ?_⟩) rfl rfl
      rw [here]
      nofun

end Callers

/-! What the workers have left to do. -/

end Server

namespace LoopPc

/-- The steps a worker takes, with a turn without an event once the queue is drained, until it
finishes or is at a `tryPop` it has to pay for with an event. -/
def stepsLeft (adapters : Nat) (force drained : Bool) : LoopPc Thread → Nat
  | .absent | .finished | .block | .blocked => 0
  | .testQueued => if force = false ∧ drained = true then 1 else 9
  | .testMode => if force then 1 else if drained then 2 else 10
  | .testStop => if force then 2 else if drained then 3 else 11
  | .tryPop => 4
  | .unlock | .inflightDec => 5
  | .predStop | .distribute _ | .countError _ => 6
  | .predQueued | .execute _ => 7
  | .lock | .notified | .parse _ => 8
  | .decode _ adapter => adapters - adapter + 9
  | .inflightInc _ => adapters + 10
  | .discount _ => adapters + 11

variable {adapters : Nat} {force : Bool} {pc : LoopPc Thread}

theorem stepsLeft_drained {before after : Bool} (grows : before = true → after = true) :
    pc.stepsLeft adapters force after ≤ pc.stepsLeft adapters force before := by
  cases force <;> cases before <;> cases after <;> cases pc <;> simp [stepsLeft] at grows ⊢

theorem stepsLeft_le {drained : Bool} :
    pc.stepsLeft adapters force drained ≤ if pc.alive then adapters + 11 else 0 := by
  cases force <;> cases drained <;> cases pc <;> simp [stepsLeft, alive] <;> omega

end LoopPc

namespace Server

def forced (server : Server Thread) : Bool := server.shutdownMode = .force

def workLeft (config : ServerConfig) (server : Server Thread) : Nat :=
  (config.adapters + 8) * server.queue.length +
    loadIn (Finset.range server.spawned)
      (LoopPc.stepsLeft config.adapters server.forced server.queue.isEmpty) server.loops

def spins : Server Thread × ServerAction Thread → Bool
  | (server, .worker id _) =>
      match server.loops id with
      | .testQueued => server.queue.isEmpty && !server.forced && server.queuedApprox != 0
      | _ => false
  | _ => false

variable {config : ServerConfig} {server next : Server Thread} {thread : Thread} {id : Nat}
variable {trace events : List (ServerEvent Thread)}

theorem decodeFrom_stepsLeft (config : ServerConfig) (event : Submission Thread) (adapter : Nat)
    (force drained : Bool) :
    (decodeFrom config event adapter).stepsLeft config.adapters force drained ≤
      config.adapters - adapter + 9 := by
  unfold decodeFrom
  split <;> simp [LoopPc.stepsLeft]

theorem decodeFrom_later (config : ServerConfig) (event : Submission Thread) (adapter : Nat)
    (force drained : Bool) :
    (decodeFrom config event (adapter + 1)).stepsLeft config.adapters force drained <
      config.adapters - adapter + 9 := by
  unfold decodeFrom
  split
  · simp only [LoopPc.stepsLeft]
    omega
  · simp only [LoopPc.stepsLeft]
    omega

/-- The worker `id` goes to `pc`, which costs it one of the steps it has left or the credit. -/
structure Pays (config : ServerConfig) (server next : Server Thread) (id : Nat)
    (pc : LoopPc Thread) (credit : Nat) : Prop where
  loops : next.loops = Function.update server.loops id pc
  mode : next.shutdownMode = server.shutdownMode
  spawned : next.spawned = server.spawned
  drained : server.queue.isEmpty = true → next.queue.isEmpty = true
  paid : (config.adapters + 8) * next.queue.length +
      pc.stepsLeft config.adapters server.forced next.queue.isEmpty + 1 ≤
    (config.adapters + 8) * server.queue.length +
      (server.loops id).stepsLeft config.adapters server.forced server.queue.isEmpty + credit

theorem Pays.keeping {pc : LoopPc Thread} {credit : Nat}
    (loops : next.loops = Function.update server.loops id pc)
    (mode : next.shutdownMode = server.shutdownMode) (spawned : next.spawned = server.spawned)
    (queue : next.queue = server.queue)
    (lower : pc.stepsLeft config.adapters server.forced server.queue.isEmpty + 1 ≤
      (server.loops id).stepsLeft config.adapters server.forced server.queue.isEmpty + credit) :
    Pays config server next id pc credit where
  loops := loops
  mode := mode
  spawned := spawned
  drained := fun drained => by rwa [queue]
  paid := by
    rw [queue]
    omega

theorem Pays.plain {pc : LoopPc Thread} {credit : Nat}
    (loops : next.loops = Function.update server.loops id pc)
    (mode : next.shutdownMode = server.shutdownMode) (spawned : next.spawned = server.spawned)
    (queue : next.queue = server.queue)
    (lower : pc.stepsLeft config.adapters server.forced server.queue.isEmpty <
      (server.loops id).stepsLeft config.adapters server.forced server.queue.isEmpty) :
    Pays config server next id pc credit := by
  apply Pays.keeping loops mode spawned queue
  omega

/-- A worker that is to stop, and does not sleep through it, pays for each of its steps. -/
theorem LoopMove.pays (moved : LoopMove config server id next events) (answer : Bool)
    (stop : server.stopRequested = true) (awake : (server.loops id).sleeping = false) :
    ∃ pc, Pays config server next id pc (if spins (server, .worker id answer) then 8 else 0) := by
  cases moved with
  | @pops event queue here found =>
      refine ⟨_, rfl, rfl, rfl, by simp [found], ?_⟩
      change (config.adapters + 8) * queue.length + (config.adapters + 11) + 1 ≤ _
      simp only [here, found, LoopPc.stepsLeft, List.length_cons, Nat.mul_add]
      omega
  | popsNothing here empty =>
      refine ⟨_, .plain rfl rfl rfl rfl ?_⟩
      cases mode : server.forced <;> simp [here, empty, LoopPc.stepsLeft]
  | @begins event here =>
      refine ⟨_, .plain rfl rfl rfl rfl ?_⟩
      have left := decodeFrom_stepsLeft config event 0 server.forced server.queue.isEmpty
      rw [here]
      exact Nat.lt_succ_of_le left
  | @decodesNot event adapter here =>
      refine ⟨_, .plain rfl rfl rfl rfl ?_⟩
      rw [here]
      exact decodeFrom_later config event adapter server.forced server.queue.isEmpty
  | locks here free =>
      refine ⟨_, .plain rfl rfl rfl rfl ?_⟩
      rcases here with here | here <;> simp [here, LoopPc.stepsLeft]
  | seesNoStop here runs => simp [stop] at runs
  | mayBlock here runs => simp [stop] at runs
  | blocks here => simp [here, LoopPc.sleeping] at awake
  | forced here mode =>
      refine ⟨_, .plain rfl rfl rfl rfl ?_⟩
      simp [here, mode, LoopPc.stepsLeft, Server.forced]
  | notForced here mode =>
      refine ⟨_, .plain rfl rfl rfl rfl ?_⟩
      cases drained : server.queue.isEmpty <;>
        simp [here, mode, LoopPc.stepsLeft, Server.forced]
  | seesStop here | exits here =>
      refine ⟨_, .plain rfl rfl rfl rfl ?_⟩
      cases mode : server.forced <;> cases drained : server.queue.isEmpty <;>
        simp [here, LoopPc.stepsLeft]
  | staysFor here more =>
      refine ⟨_, .keeping rfl rfl rfl rfl ?_⟩
      cases mode : server.forced <;> cases drained : server.queue.isEmpty <;>
        simp [here, mode, drained, more, spins, LoopPc.stepsLeft]
  | decodes here =>
      refine ⟨_, .plain rfl rfl rfl rfl ?_⟩
      rw [here]
      exact Nat.lt_of_lt_of_le (Nat.lt_succ_self 8) (Nat.le_add_left 9 _)
  | _ here =>
      refine ⟨_, .plain rfl rfl rfl rfl ?_⟩
      simp [here, LoopPc.stepsLeft]

theorem Pays.lowers {pc : LoopPc Thread} {credit : Nat} (pays : Pays config server next id pc credit)
    (alive : id < server.spawned) :
    workLeft config next + 1 ≤ workLeft config server + credit := by
  have mode : next.forced = server.forced := by simp only [Server.forced, pays.mode]
  have load : loadIn (Finset.range server.spawned)
        (LoopPc.stepsLeft config.adapters server.forced next.queue.isEmpty)
        (Function.update server.loops id pc) +
        (server.loops id).stepsLeft config.adapters server.forced server.queue.isEmpty ≤
      loadIn (Finset.range server.spawned)
        (LoopPc.stepsLeft config.adapters server.forced server.queue.isEmpty) server.loops +
        pc.stepsLeft config.adapters server.forced next.queue.isEmpty :=
    loadIn_update_le (fun _ => LoopPc.stepsLeft_drained pays.drained)
      (Finset.mem_range.mpr alive) pc
  have paid := pays.paid
  rw [workLeft, workLeft, mode, pays.loops, pays.spawned]
  omega

end Server

/-! What a `wait` has left to do. -/

namespace CallerPc

def waitLeft (handles : Nat) : CallerPc → Nat
  | .join index => handles - index + 4
  | .clearWorkers => 3
  | .readState => 2
  | .storeStopped => 1
  | _ => 0

def behind (handles : Nat) : CallerPc → Nat
  | .join index => index
  | .clearWorkers => handles
  | _ => 0

theorem behind_mono {pc : CallerPc} {fewer handles : Nat} (le : fewer ≤ handles) :
    pc.behind fewer ≤ pc.behind handles := by
  cases pc with
  | clearWorkers => exact le
  | _ => exact Nat.le_refl _

theorem waitLeft_mono {pc : CallerPc} {fewer handles : Nat} (le : fewer ≤ handles) :
    pc.waitLeft fewer ≤ pc.waitLeft handles := by
  cases pc with
  | join index =>
      simp only [waitLeft]
      omega
  | _ => exact Nat.le_refl _

end CallerPc

namespace Server

def Unjoinable (handles : List WorkerHandle) : Prop :=
  ∀ handle ∈ handles, handle.joinable = false

theorem Unjoinable.fewer {handles : List WorkerHandle} {count more : Nat} (le : count ≤ more)
    (all : Unjoinable (handles.take more)) : Unjoinable (handles.take count) := fun handle inside =>
  all handle (List.take_subset_take_left handles le inside)

theorem Unjoinable.take_succ {handles : List WorkerHandle} {index id : Nat}
    (before : Unjoinable (handles.take index)) (found : handles[index]? = some ⟨id, false⟩) :
    Unjoinable (handles.take (index + 1)) := by
  intro handle inside
  rw [List.take_add_one, found] at inside
  rcases List.mem_append.mp inside with earlier | now
  · exact before handle earlier
  · rw [List.mem_singleton.mp now]

theorem Unjoinable.set {handles : List WorkerHandle} {index id count : Nat}
    (before : Unjoinable (handles.take count)) :
    Unjoinable ((handles.set index ⟨id, false⟩).take count) := by
  intro handle inside
  rw [List.take_set] at inside
  rcases List.mem_or_eq_of_mem_set inside with earlier | rfl
  · exact before handle earlier
  · rfl

structure Waits (server next : Server Thread) (thread : Thread) (pc : CallerPc) : Prop where
  others : ∀ other, other ≠ thread → next.callers other = server.callers other
  here : next.callers thread = pc
  loops : next.loops = server.loops
  queue : next.queue = server.queue
  spawned : next.spawned = server.spawned
  stop : next.stopRequested = server.stopRequested
  mode : next.shutdownMode = server.shutdownMode
  running : next.terminated = server.terminated
  fewer : next.workers.length ≤ server.workers.length
  kept : ∀ count, Unjoinable (server.workers.take count) → Unjoinable (next.workers.take count)
  task : pc.task = .none ∨ pc.task = .wait
  behind : Unjoinable (next.workers.take (pc.behind next.workers.length))
  lower : pc.waitLeft next.workers.length < (server.callers thread).waitLeft server.workers.length

variable {config : ServerConfig} {server next : Server Thread} {thread : Thread} {id : Nat}
variable {trace events : List (ServerEvent Thread)}

variable [DecidableEq Thread]

theorem Waits.goes {pc : CallerPc} (workers : List WorkerHandle) (state : ServerState)
    (fewer : workers.length ≤ server.workers.length)
    (kept : ∀ count, Unjoinable (server.workers.take count) → Unjoinable (workers.take count))
    (task : pc.task = .none ∨ pc.task = .wait)
    (behind : Unjoinable (workers.take (pc.behind workers.length)))
    (lower : pc.waitLeft workers.length <
      (server.callers thread).waitLeft server.workers.length) :
    Waits server ({ server with workers, state }.goto thread pc) thread pc where
  others := fun _ different => Function.update_of_ne different _ _
  here := Function.update_self ..
  loops := rfl
  queue := rfl
  spawned := rfl
  stop := rfl
  mode := rfl
  running := rfl
  fewer := fewer
  kept := kept
  task := task
  behind := behind
  lower := lower

theorem CallerMove.waits (moved : CallerMove config server thread next events)
    (waiting : (server.callers thread).task = .none ∨ (server.callers thread).task = .wait)
    (behind : Unjoinable
      (server.workers.take ((server.callers thread).behind server.workers.length))) :
    ∃ pc, Waits server next thread pc := by
  have none : ∀ workers : List WorkerHandle, Unjoinable (workers.take 0) := nofun
  cases moved with
  | @joinedAll index here past =>
      rw [here] at behind
      have beyond : server.workers.length ≤ index := List.getElem?_eq_none_iff.mp past
      have all : server.workers.take index = server.workers.take server.workers.length := by
        rw [List.take_of_length_le beyond, List.take_length]
      refine ⟨.clearWorkers, .goes server.workers server.state (Nat.le_refl _) (fun _ => id)
        (.inr rfl) (all ▸ behind) ?_⟩
      simp only [here, CallerPc.waitLeft]
      omega
  | @joins index id here found done =>
      rw [here] at behind
      have bound : index < server.workers.length := (List.getElem?_eq_some_iff.mp found).1
      have now : (server.workers.set index ⟨id, false⟩)[index]? = some ⟨id, false⟩ :=
        List.getElem?_set_self bound
      refine ⟨.join (index + 1), .goes (server.workers.set index ⟨id, false⟩) server.state
        (Nat.le_of_eq List.length_set) (fun _ => Unjoinable.set) (.inr rfl)
        (behind.set.take_succ now) ?_⟩
      simp only [here, CallerPc.waitLeft, List.length_set]
      omega
  | @joinedBefore index id here found =>
      rw [here] at behind
      have bound : index < server.workers.length := (List.getElem?_eq_some_iff.mp found).1
      refine ⟨.join (index + 1), .goes server.workers server.state (Nat.le_refl _)
        (fun _ kept => kept) (.inr rfl) (behind.take_succ found) ?_⟩
      simp only [here, CallerPc.waitLeft]
      omega
  | terminates here unjoined =>
      rw [here] at behind
      obtain ⟨handle, inside, joinable⟩ := List.any_eq_true.mp unjoined
      have joined := behind handle (by simpa [CallerPc.behind] using inside)
      rw [joined] at joinable
      cases joinable
  | clearsWorkers here joined =>
      refine ⟨.readState, .goes [] server.state (Nat.zero_le _) (fun _ _ => by simp [Unjoinable])
        (.inr rfl) (none []) ?_⟩
      simp [here, CallerPc.waitLeft]
  | readsFailed here was =>
      refine ⟨.idle, .goes server.workers server.state (Nat.le_refl _) (fun _ => id) (.inl rfl)
        (none _) ?_⟩
      simp [here, CallerPc.waitLeft]
  | readsState here was =>
      refine ⟨.storeStopped, .goes server.workers server.state (Nat.le_refl _) (fun _ => id)
        (.inr rfl) (none _) ?_⟩
      simp [here, CallerPc.waitLeft]
  | storesStopped here =>
      refine ⟨.idle, .goes server.workers .stopped (Nat.le_refl _) (fun _ => id) (.inl rfl)
        (none _) ?_⟩
      simp [here, CallerPc.waitLeft]
  | _ here => simp [here, CallerPc.task] at waiting

/-! The run. -/

structure Quitting (stopped : Server Thread) (trace : List (ServerEvent Thread))
    (server : Server Thread) : Prop where
  wake : WakeOk trace server
  staffed : server.Staffed
  stop : server.stopRequested = true
  awake : ∀ id, (server.loops id).sleeping = false
  calls : ∀ thread, (server.callers thread).task = .none ∨ (server.callers thread).task = .wait
  behind : ∀ thread, Unjoinable
    (server.workers.take ((server.callers thread).behind server.workers.length))
  running : server.terminated = false
  mode : server.shutdownMode = stopped.shutdownMode
  handles : server.workers.length ≤ stopped.workers.length

variable {stopped : Server Thread}

omit [DecidableEq Thread] in
theorem Quitting.not_blocked (quitting : Quitting stopped trace server) (id : Nat) :
    server.loops id ≠ .blocked := by
  intro blocked
  have awake := quitting.awake id
  rw [blocked] at awake
  cases awake

theorem Quitting.heard (quitting : Quitting stopped trace server) {action : ServerAction Thread}
    (permitted : onlyWaits trace server action) : wakesHeard trace server action := by
  cases action with
  | caller thread wakes =>
      have quiet := quitting.calls thread
      refine ⟨⟨?_, ?_⟩, ?_, ?_, ?_⟩ <;>
        intro here <;> simp [here, CallerPc.task] at quiet
  | start thread | shutdown thread mode | trySubmit thread => exact permitted.elim
  | wait thread | worker id answer | wake id => exact ⟨trivial, trivial⟩

theorem Quitting.waits (quitting : Quitting stopped trace server)
    (moved : CallerMove config server thread next events) :
    ∃ pc, Waits server next thread pc :=
  moved.waits (quitting.calls thread) (quitting.behind thread)

omit [DecidableEq Thread] in
/-- A worker that hears the stop does not go to sleep. -/
theorem LoopMove.awake (moved : LoopMove config server id next events)
    (stop : server.stopRequested = true) (awake : ∀ id, (server.loops id).sleeping = false) :
    next.stopRequested = true ∧ next.callers = server.callers ∧ next.workers = server.workers ∧
      next.shutdownMode = server.shutdownMode ∧ next.terminated = server.terminated ∧
      ∀ id, (next.loops id).sleeping = false := by
  have update : ∀ pc : LoopPc Thread, pc.sleeping = false → ∀ other,
      (Function.update server.loops id pc other).sleeping = false := fun pc asleep other =>
    after_update (LoopPc.sleeping · = false) asleep fun _ => awake other
  cases moved with
  | mayBlock here runs => simp [stop] at runs
  | blocks here => simpa [here, LoopPc.sleeping] using awake id
  | begins here | decodesNot here =>
      refine ⟨stop, rfl, rfl, rfl, rfl, update _ ?_⟩
      unfold decodeFrom
      split <;> rfl
  | _ => exact ⟨stop, rfl, rfl, rfl, rfl, update _ rfl⟩

theorem Quitting.step (quitting : Quitting stopped trace server) {action : ServerAction Thread}
    (permitted : onlyWaits trace server action)
    (stepped : server.step config action = some (next, events)) :
    Quitting stopped (trace ++ events) next := by
  have moved := (step_move stepped).2
  have wake := quitting.wake.step (quitting.heard permitted) moved
  have staffed := quitting.staffed.step quitting.wake.events moved
  cases moved with
  | call here entry =>
      cases entry with
      | wait =>
          refine ⟨wake, staffed, quitting.stop, quitting.awake, ?_, ?_, quitting.running,
            quitting.mode, quitting.handles⟩
          · intro other
            exact after_update (fun pc : CallerPc => pc.task = .none ∨ pc.task = .wait) (.inr rfl)
              fun _ => quitting.calls other
          · intro other
            exact after_update
              (fun pc : CallerPc =>
                Unjoinable (server.workers.take (pc.behind server.workers.length)))
              (by simp [CallerPc.behind, Unjoinable]) fun _ => quitting.behind other
      | _ => exact permitted.elim
  | caller moved =>
      rename_i thread wakes
      obtain ⟨pc, waits⟩ := quitting.waits moved
      have split : ∀ other, other = thread ∧ next.callers other = pc ∨
          next.callers other = server.callers other := by
        intro other
        by_cases same : other = thread
        · exact .inl ⟨same, same ▸ waits.here⟩
        · exact .inr (waits.others other same)
      refine ⟨wake, staffed, waits.stop.trans quitting.stop, ?_, ?_, ?_,
        waits.running.trans quitting.running, waits.mode.trans quitting.mode,
        waits.fewer.trans quitting.handles⟩
      · rw [waits.loops]
        exact quitting.awake
      · intro other
        rcases split other with ⟨-, now⟩ | before
        · rw [now]
          exact waits.task
        · rw [before]
          exact quitting.calls other
      · intro other
        rcases split other with ⟨-, now⟩ | before
        · rw [now]
          exact waits.behind
        · rw [before]
          exact waits.kept _ ((quitting.behind other).fewer (CallerPc.behind_mono waits.fewer))
  | worker moved =>
      obtain ⟨stop, callers, workers, mode, running, awake⟩ :=
        moved.awake quitting.stop quitting.awake
      refine ⟨wake, staffed, stop, awake, ?_, ?_, running.trans quitting.running,
        mode.trans quitting.mode, ?_⟩
      · rw [callers]
        exact quitting.calls
      · rw [callers, workers]
        exact quitting.behind
      · rw [workers]
        exact quitting.handles
  | wake here => exact absurd here (quitting.not_blocked _)

theorem Quitting.initial (reached : (serverMachine config Thread).Reaches wakesHeard trace stopped)
    (settled : StopSettled trace) (returned : ∀ thread, stopped.callers thread = .idle)
    (running : stopped.terminated = false) : Quitting stopped trace stopped := by
  obtain ⟨wake, staffed⟩ := reached.invariant
    (fun trace server => WakeOk trace server ∧ server.Staffed) ⟨.initial, .initial⟩
    fun _ _ _ _ _ ok permitted stepped =>
      ⟨ok.1.step permitted (step_move stepped).2, ok.2.step ok.1.events (step_move stepped).2⟩
  refine ⟨wake, staffed, wake.stop.stop settled, wake.stop.awake settled, ?_, ?_, running, rfl,
    Nat.le_refl _⟩
  · intro thread
    rw [returned]
    exact .inl rfl
  · intro thread
    rw [returned]
    exact nofun

def isWorkerStep : Server Thread × ServerAction Thread → Bool
  | (_, .worker _ _) => true
  | _ => false

def isCallerStep (thread : Thread) : Server Thread × ServerAction Thread → Bool
  | (_, .caller other _) => other = thread
  | _ => false

def isWaitCall (thread : Thread) : Server Thread × ServerAction Thread → Bool
  | (_, .wait other) => other = thread
  | _ => false

theorem Quitting.worker_paid (quitting : Quitting stopped trace server)
    {action : ServerAction Thread} (permitted : onlyWaits trace server action)
    (stepped : server.step config action = some (next, events)) :
    workLeft config next + (if isWorkerStep (server, action) then 1 else 0) ≤
      workLeft config server + if spins (server, action) then 8 else 0 := by
  have moved := (step_move stepped).2
  cases moved with
  | call here entry => cases entry <;> exact Nat.le_add_right _ _
  | caller moved =>
      obtain ⟨pc, waits⟩ := quitting.waits moved
      have same : workLeft config next = workLeft config server := by
        simp only [workLeft, Server.forced, waits.loops, waits.queue, waits.spawned, waits.mode]
      rw [same]
      exact Nat.le_add_right _ _
  | @worker id answer next events moved =>
      obtain ⟨pc, pays⟩ := moved.pays answer quitting.stop (quitting.awake id)
      exact pays.lowers (quitting.wake.events.alive moved.present.1)
  | wake here => exact absurd here (quitting.not_blocked _)

def waitLeft (thread : Thread) (server : Server Thread) : Nat :=
  (server.callers thread).waitLeft server.workers.length

theorem Quitting.caller_paid (quitting : Quitting stopped trace server)
    {action : ServerAction Thread} (permitted : onlyWaits trace server action)
    (stepped : server.step config action = some (next, events)) (thread : Thread) :
    waitLeft thread next + (if isCallerStep thread (server, action) then 1 else 0) ≤
      waitLeft thread server +
        if isWaitCall thread (server, action) then stopped.workers.length + 4 else 0 := by
  have moved := (step_move stepped).2
  cases moved with
  | @call other action pc event here entry =>
      cases entry with
      | wait =>
          have handles := quitting.handles
          by_cases same : other = thread
          · subst same
            simp only [waitLeft, Server.goto, Function.update_self, CallerPc.waitLeft,
              isCallerStep, isWaitCall, decide_true, if_true]
            simp only [Bool.false_eq_true, if_false]
            omega
          · have callers : (server.goto other (.join 0)).callers thread = server.callers thread :=
              Function.update_of_ne (Ne.symm same) ..
            simp only [waitLeft, callers, isCallerStep, isWaitCall]
            exact Nat.le_add_right _ _
      | _ => exact permitted.elim
  | @caller other wakes next events moved =>
      obtain ⟨pc, waits⟩ := quitting.waits moved
      by_cases same : other = thread
      · subst same
        have lower := waits.lower
        simp only [waitLeft, waits.here, isCallerStep, isWaitCall, decide_true, if_true]
        omega
      · have callers := waits.others thread (Ne.symm same)
        have fewer : (server.callers thread).waitLeft next.workers.length ≤
            (server.callers thread).waitLeft server.workers.length :=
          CallerPc.waitLeft_mono waits.fewer
        simp only [waitLeft, callers, isCallerStep, isWaitCall, same, decide_false]
        exact fewer
  | worker moved =>
      obtain ⟨_, callers, workers, _⟩ := moved.awake quitting.stop quitting.awake
      have same : waitLeft thread next = waitLeft thread server := by
        rw [waitLeft, waitLeft, callers, workers]
      rw [same]
      exact Nat.le_add_right _ _
  | wake here => exact absurd here (quitting.not_blocked _)

/-! Nothing blocks but a join. -/

omit [DecidableEq Thread] in
theorem loop_enabled (config : ServerConfig) (present : server.loops id ≠ .absent)
    (unfinished : server.loops id ≠ .finished) (unblocked : server.loops id ≠ .blocked)
    (free : server.loops id = .lock ∨ server.loops id = .notified → server.wakeMutex = none) :
    (server.loopStep config id true).isSome = true := by
  unfold loopStep
  cases pc : server.loops id with
  | absent => exact absurd pc present
  | finished => exact absurd pc unfinished
  | blocked => exact absurd pc unblocked
  | lock => simp [free (.inl pc)]
  | notified => simp [free (.inr pc)]
  | tryPop | testStop | testMode | testQueued | predQueued | predStop =>
      dsimp only
      split <;> rfl
  | _ => rfl

/-- While a worker has not finished, one of them can take a step: the holder of the mutex
never waits for anything. -/
theorem Quitting.working (quitting : Quitting stopped trace server) (config : ServerConfig) :
    (∀ id, id < server.spawned → server.loops id = .finished) ∨
      ∃ id answer, (server.step config (.worker id answer)).isSome = true := by
  have enabled : ∀ id, server.loops id ≠ .absent → server.loops id ≠ .finished →
      (server.loops id = .lock ∨ server.loops id = .notified → server.wakeMutex = none) →
      ∃ id answer, (server.step config (.worker id answer)).isSome = true := by
    intro id present unfinished free
    have enabled := loop_enabled config present unfinished (quitting.not_blocked id) free
    exact ⟨id, true, by simpa [Server.step, quitting.running] using enabled⟩
  by_cases done : ∀ id, id < server.spawned → server.loops id = .finished
  · exact .inl done
  · obtain ⟨id, unfinished⟩ := not_forall.mp done
    obtain ⟨bound, unfinished⟩ := Classical.not_imp.mp unfinished
    refine .inr ?_
    cases held : server.wakeMutex with
    | none => exact enabled id (quitting.staffed.present id bound) unfinished fun _ => held
    | some holder =>
        have holds := quitting.staffed.mutex holder held
        apply enabled holder
        · intro here
          simp [here, LoopPc.holdsMutex] at holds
        · intro here
          simp [here, LoopPc.holdsMutex] at holds
        · rintro (here | here) <;> simp [here, LoopPc.holdsMutex] at holds

/-- A `wait` stands still at the join of a worker that has not finished, and nowhere else. -/
theorem Quitting.waiting (quitting : Quitting stopped trace server) (config : ServerConfig)
    (thread : Thread) (busy : server.callers thread ≠ .idle) :
    (server.step config (.caller thread 0)).isSome = true ∨
      ∃ id, id < server.spawned ∧ server.loops id ≠ .finished := by
  by_cases working : ∃ id, id < server.spawned ∧ server.loops id ≠ .finished
  · exact .inr working
  · have finished : ∀ id, id < server.spawned → server.loops id = .finished := by
      intro id bound
      by_contra unfinished
      exact working ⟨id, bound, unfinished⟩
    have quiet := quitting.calls thread
    left
    simp only [Server.step, quitting.running, Bool.false_eq_true, if_false]
    unfold callerStep
    cases pc : server.callers thread with
    | idle => exact absurd pc busy
    | join index =>
        cases found : server.workers[index]? with
        | none => simp [found]
        | some handle =>
            obtain ⟨id, joinable⟩ := handle
            have bound := quitting.staffed.handles _ (List.mem_of_getElem? found)
            cases joinable with
            | false => simp [found]
            | true => simp [found, finished id bound]
    | clearWorkers | readState =>
        dsimp only
        split <;> rfl
    | storeStopped => rfl
    | _ => simp [pc, CallerPc.task] at quiet

omit [DecidableEq Thread] in
/-- A worker spins only while another one has popped an event and not yet discounted it. -/
theorem Quitting.spinning (quitting : Quitting stopped trace server)
    {action : ServerAction Thread} (spinning : spins (server, action) = true) :
    server.shutdownMode ≠ .force ∧ ∃ id event, server.loops id = .discount event := by
  obtain ⟨empty, unforced, some⟩ : server.queue = [] ∧ server.shutdownMode ≠ .force ∧
      server.queuedApprox ≠ 0 := by
    unfold spins at spinning
    split at spinning
    · rename_i server' id _ same
      obtain ⟨rfl, -⟩ := Prod.mk.inj same
      split at spinning
      · simpa [Server.forced, and_assoc] using spinning
      · simp at spinning
    · simp at spinning
  refine ⟨unforced, ?_⟩
  by_contra nowhere
  have eventsOk := quitting.wake.events.events
  have counted : (countedEvents trace).length = (pushedEvents trace).length := by
    refine eventsOk.all_counted fun thread pushing => ?_
    have quiet := quitting.calls thread
    have stage : (server.callers thread).stage = .pushed := pushing
    cases pc : server.callers thread <;>
      simp [pc, CallerPc.stage, CallerPc.task] at stage quiet
  have discounted : (discountedEvents trace).length = (poppedEvents trace).length := by
    refine eventsOk.all_discounted fun id => ?_
    change (server.loops id).discounting = Option.none
    cases pc : server.loops id with
    | discount event => exact absurd ⟨id, event, pc⟩ nowhere
    | _ => rfl
  have order : (pushedEvents trace).length =
      (poppedEvents trace).length + server.queue.length :=
    (congrArg List.length eventsOk.order).trans List.length_append
  rw [empty, List.length_nil, Nat.add_zero] at order
  have depth := quitting.wake.depth.depth
  rw [Tallied, counted, order, discounted] at depth
  exact some ((UInt64.add_left_inj _).mp (depth.trans (UInt64.zero_add _).symm))

omit [DecidableEq Thread] in
theorem workLeft_le (config : ServerConfig) (server : Server Thread) :
    workLeft config server ≤ (config.adapters + 11) * (server.queue.length +
      countIn (Finset.range server.spawned) LoopPc.alive server.loops) := by
  have load : loadIn (Finset.range server.spawned)
        (LoopPc.stepsLeft config.adapters server.forced server.queue.isEmpty) server.loops ≤
      (config.adapters + 11) * countIn (Finset.range server.spawned) LoopPc.alive server.loops :=
    loadIn_le fun _ => LoopPc.stepsLeft_le
  have queued : (config.adapters + 8) * server.queue.length ≤
      (config.adapters + 11) * server.queue.length := Nat.mul_le_mul_right _ (by omega)
  rw [workLeft, Nat.mul_add]
  omega

structure ComesToRest (config : ServerConfig) (stopped : Server Thread)
    (steps : List (Server Thread × ServerAction Thread)) (last : Server Thread) : Prop where
  workers : steps.countP isWorkerStep ≤
    (config.adapters + 11) * (stopped.queue.length +
      countIn (Finset.range stopped.spawned) LoopPc.alive stopped.loops) +
      8 * steps.countP spins
  spinning : ∀ visit ∈ steps, spins visit = true →
    ∃ id event, visit.1.loops id = .discount event
  forced : stopped.shutdownMode = .force → steps.countP spins = 0
  waits : ∀ thread, steps.countP (isCallerStep thread) ≤
    (stopped.workers.length + 4) * steps.countP (isWaitCall thread)
  running : last.terminated = false
  working : (∀ id, id < last.spawned → last.loops id = .finished) ∨
    ∃ id answer, (last.step config (.worker id answer)).isSome = true
  waiting : ∀ thread, last.callers thread ≠ .idle →
    (last.step config (.caller thread 0)).isSome = true ∨
      ∃ id, id < last.spawned ∧ last.loops id ≠ .finished

/-- After a `shutdown` that no worker has missed the workers finish and every `wait` returns. -/
theorem stopped_server_quits {last : Server Thread}
    {steps : List (Server Thread × ServerAction Thread)}
    (reached : (serverMachine config Thread).Reaches wakesHeard trace stopped)
    (settled : StopSettled trace) (returned : ∀ thread, stopped.callers thread = .idle)
    (running : stopped.terminated = false)
    (walk : (serverMachine config Thread).Walk onlyWaits trace stopped steps events last) :
    ComesToRest config stopped steps last := by
  have initial : Quitting stopped trace stopped := .initial reached settled returned running
  have kept : ∀ trace state action next events, Quitting stopped trace state →
      onlyWaits trace state action →
      (serverMachine config Thread).step state action = some (next, events) →
      Quitting stopped (trace ++ events) next :=
    fun _ _ _ _ _ quitting permitted stepped => quitting.step permitted stepped
  have quitting : Quitting stopped (trace ++ events) last :=
    walk.path.invariant (Quitting stopped) initial kept
  have spinning : ∀ visit ∈ steps, spins visit = true →
      stopped.shutdownMode ≠ .force ∧ ∃ id event, visit.1.loops id = .discount event := by
    refine walk.visited (Quitting stopped) initial kept ?_
    intro trace state action quitting _ _ spins
    obtain ⟨unforced, busy⟩ := quitting.spinning spins
    exact ⟨quitting.mode ▸ unforced, busy⟩
  constructor
  case workers =>
    have count := walk.count_le (Quitting stopped) (fun _ state => workLeft config state)
      isWorkerStep spins 8 initial kept
      fun _ _ _ _ _ quitting permitted stepped => quitting.worker_paid permitted stepped
    have work := workLeft_le config stopped
    omega
  case spinning => exact fun visit inside spins => (spinning visit inside spins).2
  case forced =>
    intro forced
    refine List.countP_eq_zero.mpr fun visit inside spins => ?_
    exact (spinning visit inside spins).1 forced
  case waits =>
    intro thread
    have count := walk.count_le (Quitting stopped) (fun _ state => waitLeft thread state)
      (isCallerStep thread) (isWaitCall thread) (stopped.workers.length + 4) initial kept
      fun _ _ _ _ _ quitting permitted stepped => quitting.caller_paid permitted stepped thread
    have idle : waitLeft thread stopped = 0 := by
      rw [waitLeft, returned]
      rfl
    omega
  case running => exact quitting.running
  case working => exact quitting.working config
  case waiting => exact quitting.waiting config

def quitSchedule : List (ServerAction Unit) :=
  [ServerAction.wait ()] ++ List.replicate 15 (ServerAction.worker 0 true) ++
    List.replicate 5 (ServerAction.caller () 0)

theorem quitSchedule_runs :
    ((serverMachine sampleConfig Unit).exec onlyWaits (Option.get _ heardSchedule_runs).1
      (Option.get _ heardSchedule_runs).2 quitSchedule).isSome = true := by
  decide +kernel

theorem stopped_server_quits_sample :
    (Option.get _ quitSchedule_runs).2.loops 0 = .finished ∧
      (Option.get _ quitSchedule_runs).2.callers () = .idle ∧
      ComesToRest sampleConfig (Option.get _ heardSchedule_runs).2
        ((serverMachine sampleConfig Unit).visits (Option.get _ heardSchedule_runs).2 quitSchedule)
        (Option.get _ quitSchedule_runs).2 := by
  refine ⟨by decide +kernel, by decide +kernel, ?_⟩
  obtain ⟨segment, walk⟩ := EventMachine.walk_of_isSome quitSchedule_runs
  refine stopped_server_quits (EventMachine.reaches_of_isSome heardSchedule_runs) ?_
    (by decide +kernel) (by decide +kernel) walk
  exact ⟨(), (sinceCleared (Option.get _ heardSchedule_runs).1).dropLast.dropLast,
    [.shutdownReturned ()], by decide +kernel, List.mem_singleton_self _⟩

end Server

end MyServer
