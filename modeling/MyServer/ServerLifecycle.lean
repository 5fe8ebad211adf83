import MyServer.ServerDepth
import MyServer.ServerStart

/-!
`state_` and `stopRequested_` over overlapping calls of `start`, `shutdown` and `wait`. Each
call writes them in several steps, so they agree only while no call overlaps another one at
the wrong step; that is said of where the callers stand, and what it does to the flags follows.
-/

namespace MyServer

namespace CallerPc

def starting : CallerPc → Bool
  | .clearStop | .clearQueued | .spawn _ => true
  | _ => false

def clearing : CallerPc → Bool
  | .clearStop => true
  | _ => false

def requesting : CallerPc → Bool
  | .requestStop => true
  | _ => false

def passing : CallerPc → Bool
  | .storeStopping => true
  | _ => false

def plain (pc : CallerPc) : Bool :=
  !(pc.clearing || pc.requesting || pc.starting || pc.passing)

theorem plain_of_submit {pc : CallerPc} (submits : pc.task = .submit) : pc.plain = true := by
  cases pc with
  | checkRunning | checkDepth | tryPush | countQueued | countAccepted | notifyOne | reject => rfl
  | _ => cases submits

end CallerPc

variable {Thread : Type}

namespace ServerEvent

def isStopCleared : ServerEvent Thread → Bool
  | .stopCleared => true
  | _ => false

def isSpawned : ServerEvent Thread → Bool
  | .spawned _ => true
  | _ => false

end ServerEvent

def spawnedSinceStart (trace : List (ServerEvent Thread)) : Bool :=
  (trace.reverse.takeWhile fun event => !event.isStopCleared).any ServerEvent.isSpawned

namespace Server

def Settled (server : Server Thread) : Prop :=
  ∀ thread, (server.callers thread).task = .none ∨ (server.callers thread).task = .submit

structure LifecycleConsistent (trace : List (ServerEvent Thread)) (server : Server Thread) :
    Prop where
  running : server.state = .running →
    server.stopRequested = false ∧ spawnedSinceStart trace = true
  stopping : server.state = .stopping → server.stopRequested = true
  stopped : server.state = .stopped → ∀ id, server.loops id = .absent ∨ server.loops id = .finished

def oneWait (_ : List (ServerEvent Thread)) (server : Server Thread) : ServerAction Thread → Prop
  | .wait _ => ∀ thread, (server.callers thread).task ≠ .wait
  | _ => True

def Wins (server : Server Thread) (thread : Thread) : Prop :=
  (server.callers thread = .exchangeCreated ∧ server.state = .created) ∨
    (server.callers thread = .exchangeStopped ∧ server.state = .stopped)

/-- No `start` wins during a `wait` or between the two stores of a `shutdown`, and no `wait`
begins before a `start` that has won has spawned its workers; `shutdown` requests its stop
when no `start` is about to clear the flag; `wait` stores `stopped` when no `shutdown` is
between its test and its first store. -/
def ordered (_ : List (ServerEvent Thread)) (server : Server Thread) : ServerAction Thread → Prop
  | .wait _ => ∀ other, (server.callers other).starting = false
  | .caller thread _ =>
      (server.Wins thread → ∀ other, (server.callers other).task ≠ .wait ∧
        (server.callers other).requesting = false) ∧
      (server.callers thread = .requestStop → ∀ other, (server.callers other).clearing = false) ∧
      (server.callers thread = .storeStopped → ∀ other, (server.callers other).passing = false)
  | _ => True

def Down (server : Server Thread) : Prop := server.state = .created ∨ server.state = .stopped

structure LifecycleOk (trace : List (ServerEvent Thread)) (server : Server Thread) : Prop where
  running : server.state = .running → server.stopRequested = false ∨
    ∃ thread, (server.callers thread).clearing = true
  stopping : server.state = .stopping →
    (∃ thread, (server.callers thread).requesting = true) ∨
      server.stopRequested = true ∧ ∀ thread, (server.callers thread).clearing = false
  spawned : server.state = .running → spawnedSinceStart trace = true ∨
    ∃ thread, (server.callers thread).starting = true
  stopped : server.state = .stopped → ∀ thread, (server.callers thread).passing = false
  requested : ∀ thread, (server.callers thread).requesting = true →
    server.state = .stopping ∨ server.state = .stopped
  apart : ∀ left right, (server.callers left).task = .wait →
    (server.callers right).starting = false
  joinable : server.HandlesKept
  joined : ∀ thread, (server.callers thread).joined = true →
    ∀ id, id < server.spawned → server.loops id = .finished
  down : server.Down → (∀ id, id < server.spawned → server.loops id = .finished) ∧
    ∀ thread, (server.callers thread).starting = false
  alone : ∀ left right, (server.callers left).starting = true →
    (server.callers right).starting = true → left = right

variable {trace events : List (ServerEvent Thread)} {server next : Server Thread}
variable {config : ServerConfig} {thread : Thread} {id : Nat}

theorem spawned_append (silent : events.any ServerEvent.isStopCleared = false) :
    spawnedSinceStart (trace ++ events) =
      (events.any ServerEvent.isSpawned || spawnedSinceStart trace) := by
  have kept : ∀ event ∈ events.reverse, (!ServerEvent.isStopCleared event) = true := by
    intro event inside
    have quiet := List.any_eq_false.mp silent event (List.mem_reverse.mp inside)
    simpa using quiet
  rw [spawnedSinceStart, List.reverse_append, List.takeWhile_append_of_pos kept, List.any_append,
    List.any_reverse, spawnedSinceStart]

/-- A start that may still spawn keeps the server from being down. -/
theorem LifecycleOk.up (ok : LifecycleOk trace server)
    (starts : (server.callers thread).starting = true) : ¬server.Down := by
  intro down
  have none := (ok.down down).2 thread
  simp [starts] at none

theorem LifecycleOk.spawned_later (ok : LifecycleOk trace server)
    (kept : next.state = .running → server.state = .running)
    (starting : ∀ other, (next.callers other).starting = (server.callers other).starting)
    (silent : events.any ServerEvent.isStopCleared = false) (running : next.state = .running) :
    spawnedSinceStart (trace ++ events) = true ∨
      ∃ other, (next.callers other).starting = true := by
  rw [spawned_append silent]
  rcases ok.spawned (kept running) with before | ⟨other, starts⟩
  · exact .inl (by rw [before, Bool.or_true])
  · exact .inr ⟨other, by rw [starting, starts]⟩

theorem LifecycleOk.loop (ok : LifecycleOk trace server) {pc : LoopPc Thread}
    (alive : id < server.spawned) (unfinished : server.loops id ≠ .finished)
    (loops : next.loops = Function.update server.loops id pc)
    (callers : next.callers = server.callers) (state : next.state = server.state)
    (stop : next.stopRequested = server.stopRequested) (same : next.spawned = server.spawned)
    (workers : next.workers = server.workers)
    (silent : events.any ServerEvent.isStopCleared = false) :
    LifecycleOk (trace ++ events) next where
  running := by rw [state, stop, callers]; exact ok.running
  stopping := by rw [state, stop, callers]; exact ok.stopping
  spawned := ok.spawned_later (fun running => state ▸ running) (by simp [callers]) silent
  stopped := by rw [state, callers]; exact ok.stopped
  requested := by rw [state, callers]; exact ok.requested
  apart := by rw [callers]; exact ok.apart
  joinable := HandlesKept.loop ok.joinable unfinished loops same workers
  joined := by
    intro thread past
    rw [callers] at past
    exact absurd (ok.joined thread past id alive) unfinished
  down := by
    rw [Down, state]
    intro down
    exact absurd ((ok.down down).1 id alive) unfinished
  alone := by rw [callers]; exact ok.alone

theorem LifecycleOk.worker (ok : LifecycleOk trace server) (eventsOk : EventsOk trace server)
    (moved : LoopMove config server id next events) : LifecycleOk (trace ++ events) next := by
  have present := moved.present
  cases moved with
  | _ => exact ok.loop (eventsOk.alive present.1) present.2 rfl rfl rfl rfl rfl rfl rfl

section Callers

variable [DecidableEq Thread]

theorem exists_update {holds : CallerPc → Bool} {callers : Thread → CallerPc} {pc : CallerPc}
    (found : ∃ other, holds (callers other) = true) (outside : holds (callers thread) = false) :
    ∃ other, holds (Function.update callers thread pc other) = true := by
  obtain ⟨other, here⟩ := found
  refine ⟨other, ?_⟩
  have different : other ≠ thread := by
    rintro rfl
    simp [outside] at here
  rwa [Function.update_of_ne different]

/-- A caller goes on, with what it does to `state_` and the stop flag. -/
theorem LifecycleOk.writes (ok : LifecycleOk trace server) {pc : CallerPc}
    (callers : next.callers = Function.update server.callers thread pc)
    (starting : pc.starting = (server.callers thread).starting)
    (running : next.state = .running → next.stopRequested = false ∨
      ∃ other, (next.callers other).clearing = true)
    (stopping : next.state = .stopping → (∃ other, (next.callers other).requesting = true) ∨
      next.stopRequested = true ∧ ∀ other, (next.callers other).clearing = false)
    (spawns : next.state = .running → spawnedSinceStart (trace ++ events) = true ∨
      ∃ other, (next.callers other).starting = true)
    (stopped : next.state = .stopped → ∀ other, (next.callers other).passing = false)
    (requested : ∀ other, (next.callers other).requesting = true →
      next.state = .stopping ∨ next.state = .stopped)
    (waits : pc.task = .wait → (server.callers thread).task = .wait ∨
      ∀ other, (server.callers other).starting = false)
    (spawned : next.spawned = server.spawned)
    (finished : ∀ id, next.loops id = .finished ↔ server.loops id = .finished)
    (handles : next.HandlesKept)
    (joined : pc.joined = true → ∀ id, id < server.spawned → server.loops id = .finished)
    (down : next.Down → (∀ id, id < server.spawned → server.loops id = .finished) ∧
      ∀ other, (server.callers other).starting = false) :
    LifecycleOk (trace ++ events) next := by
  have same : ∀ other, (next.callers other).starting = (server.callers other).starting := by
    intro other
    rw [callers]
    exact reads_same CallerPc.starting starting other
  constructor
  case running => exact running
  case stopping => exact stopping
  case spawned => exact spawns
  case stopped => exact stopped
  case requested => exact requested
  case apart =>
    intro left right waiting
    rw [callers] at waiting
    rw [same]
    rcases of_update (CallerPc.task · = .wait) waiting with ⟨-, now⟩ | before
    · exact (waits now).elim (ok.apart thread right) (· right)
    · exact ok.apart left right before
  case joinable => exact handles
  case joined =>
    intro other past id bound
    rw [callers] at past
    rw [spawned] at bound
    rw [finished]
    rcases of_update (CallerPc.joined · = true) past with ⟨-, now⟩ | before
    · exact joined now id bound
    · exact ok.joined other before id bound
  case down =>
    intro now
    obtain ⟨dead, none⟩ := down now
    rw [spawned]
    exact ⟨fun id bound => (finished id).mpr (dead id bound), fun other => by rw [same, none]⟩
  case alone =>
    intro left right leftStarts rightStarts
    rw [same] at leftStarts rightStarts
    exact ok.alone left right leftStarts rightStarts

/-- A caller goes on and leaves `state_` and the stop flag alone. -/
theorem LifecycleOk.goto (ok : LifecycleOk trace server) {pc : CallerPc}
    (callers : next.callers = Function.update server.callers thread pc)
    (state : next.state = server.state) (stop : next.stopRequested = server.stopRequested)
    (spawned : next.spawned = server.spawned)
    (finished : ∀ id, next.loops id = .finished ↔ server.loops id = .finished)
    (handles : next.HandlesKept)
    (leaves : (server.callers thread).clearing = false ∧
      (server.callers thread).requesting = false)
    (enters : pc.clearing = false ∧ pc.requesting = false)
    (starting : pc.starting = (server.callers thread).starting)
    (passing : pc.passing = true → server.state ≠ .stopped)
    (waits : pc.task = .wait → (server.callers thread).task = .wait ∨
      ∀ other, (server.callers other).starting = false)
    (joined : pc.joined = true → ∀ id, id < server.spawned → server.loops id = .finished)
    (silent : events.any ServerEvent.isStopCleared = false) :
    LifecycleOk (trace ++ events) next := by
  refine ok.writes callers starting ?_ ?_ ?_ ?_ ?_ waits spawned finished handles joined ?_
  · rw [state, stop, callers]
    exact fun running => (ok.running running).imp_right (exists_update · leaves.1)
  · rw [state, stop, callers]
    intro stopping
    rcases ok.stopping stopping with pending | ⟨requested, none⟩
    · exact .inl (exists_update pending leaves.2)
    · exact .inr ⟨requested, fun other =>
        after_update (CallerPc.clearing · = false) enters.1 fun _ => none other⟩
  · refine ok.spawned_later (fun running => state ▸ running) (fun other => ?_) silent
    rw [callers]
    exact reads_same CallerPc.starting starting other
  · rw [state, callers]
    intro stopped other
    have stays : pc.passing = false := Bool.eq_false_iff.mpr fun now => passing now stopped
    exact after_update (CallerPc.passing · = false) stays fun _ => ok.stopped stopped other
  · rw [state, callers]
    intro other requesting
    exact ok.requested other
      (before_update (CallerPc.requesting · = true) (by simp [enters.2]) requesting)
  · rw [Down, state]
    exact ok.down

theorem LifecycleOk.passes (ok : LifecycleOk trace server) {pc : CallerPc}
    (callers : next.callers = Function.update server.callers thread pc)
    (state : next.state = server.state) (stop : next.stopRequested = server.stopRequested)
    (spawned : next.spawned = server.spawned)
    (finished : ∀ id, next.loops id = .finished ↔ server.loops id = .finished)
    (handles : next.HandlesKept) (leaves : (server.callers thread).plain = true)
    (enters : pc.plain = true)
    (waits : pc.task = .wait → (server.callers thread).task = .wait ∨
      ∀ other, (server.callers other).starting = false)
    (joined : pc.joined = true → ∀ id, id < server.spawned → server.loops id = .finished)
    (silent : events.any ServerEvent.isStopCleared = false) :
    LifecycleOk (trace ++ events) next := by
  simp only [CallerPc.plain, Bool.not_eq_true', Bool.or_eq_false_iff] at leaves enters
  obtain ⟨⟨⟨clearing, requesting⟩, starting⟩, _⟩ := leaves
  obtain ⟨⟨⟨noClearing, noRequesting⟩, noStarting⟩, noPassing⟩ := enters
  exact ok.goto callers state stop spawned finished handles ⟨clearing, requesting⟩
    ⟨noClearing, noRequesting⟩ (noStarting.trans starting.symm) (by simp [noPassing]) waits joined
    silent

/-- `start` wins its compare-exchange: no `shutdown` has still to request a stop. -/
theorem LifecycleOk.starts (ok : LifecycleOk trace server) (wins : server.Wins thread)
    (free : ∀ other, (server.callers other).task ≠ .wait ∧
      (server.callers other).requesting = false) :
    LifecycleOk (trace ++ []) ({ server with state := .running }.goto thread .clearStop) := by
  have down : server.Down := wins.imp And.right And.right
  have here : (Function.update server.callers thread .clearStop thread) = .clearStop :=
    Function.update_self ..
  have mine : ∀ other, (Function.update server.callers thread .clearStop other).starting = true →
      other = thread := by
    intro other starts
    by_contra different
    rw [Function.update_of_ne different, (ok.down down).2 other] at starts
    cases starts
  constructor
  case running => exact fun _ => .inr ⟨thread, congrArg CallerPc.clearing here⟩
  case stopping => nofun
  case spawned => exact fun _ => .inr ⟨thread, congrArg CallerPc.starting here⟩
  case stopped => nofun
  case requested =>
    intro other requesting
    have before := before_update (CallerPc.requesting · = true) (by simp [CallerPc.requesting])
      requesting
    rw [(free other).2] at before
    cases before
  case apart =>
    intro left right waiting
    have before := before_update (CallerPc.task · = .wait) (by simp [CallerPc.task]) waiting
    exact absurd before (free left).1
  case joinable => exact ok.joinable.frame rfl rfl fun _ => id
  case joined => exact fun _ _ => (ok.down down).1
  case down => exact fun up => by rcases up with up | up <;> cases up
  case alone =>
    intro left right leftStarts rightStarts
    rw [mine left leftStarts, mine right rightStarts]

/-- `start` clears the stop flag: a stop already requested would be lost. -/
theorem LifecycleOk.clears (ok : LifecycleOk trace server)
    (here : server.callers thread = .clearStop) :
    LifecycleOk (trace ++ [.stopCleared])
      ({ server with stopRequested := false }.goto thread .clearQueued) := by
  have starts : (server.callers thread).starting = true := by rw [here]; rfl
  have same : (CallerPc.clearQueued).starting = (server.callers thread).starting := by
    rw [starts]; rfl
  refine ok.writes rfl same (fun _ => .inl rfl) (fun stopping => ?_) (fun _ => ?_)
    (fun stopped => ?_) (fun other requesting => ?_) nofun rfl (fun _ => .rfl)
    (ok.joinable.frame rfl rfl fun _ => id) nofun ok.down
  · rcases ok.stopping stopping with pending | ⟨_, none⟩
    · exact .inl (exists_update pending (by rw [here]; rfl))
    · have clears := none thread
      rw [here] at clears
      cases clears
  · exact .inr ⟨thread, (reads_same CallerPc.starting same thread).trans starts⟩
  · exact absurd (.inr stopped) (ok.up starts)
  · exact ok.requested other
      (before_update (CallerPc.requesting · = true) (by simp [CallerPc.requesting]) requesting)

theorem LifecycleOk.spawns (ok : LifecycleOk trace server) {i : Nat} {pc : CallerPc}
    (here : server.callers thread = .spawn i) (goes : pc = .spawn (i + 1) ∨ pc = .idle)
    (silent : events.any ServerEvent.isStopCleared = false)
    (spawned : events.any ServerEvent.isSpawned = true) :
    LifecycleOk (trace ++ events) ({ server with
      workers := server.workers ++ [WorkerHandle.mk server.spawned true]
      loops := Function.update server.loops server.spawned .tryPop
      spawned := server.spawned + 1 }.goto thread pc) := by
  have starts : (server.callers thread).starting = true := by rw [here]; rfl
  have calm : pc.clearing = false ∧ pc.requesting = false ∧ pc.passing = false ∧
      pc.task ≠ .wait ∧ pc.joined = false := by
    rcases goes with rfl | rfl <;> exact ⟨rfl, rfl, rfl, nofun, rfl⟩
  have waitless : ∀ other, (server.callers other).task ≠ .wait := by
    intro other waits
    have outside := ok.apart other thread waits
    rw [starts] at outside
    cases outside
  have mine : ∀ other, (Function.update server.callers thread pc other).starting = true →
      other = thread := by
    intro other starting
    by_contra different
    rw [Function.update_of_ne different] at starting
    exact different (ok.alone other thread starting starts)
  have quiet : ∀ other, (Function.update server.callers thread pc other).task ≠ .wait :=
    fun other => after_update (CallerPc.task · ≠ .wait) calm.2.2.2.1 fun _ => waitless other
  constructor
  case running =>
    exact fun running => (ok.running running).imp_right (exists_update · (by rw [here]; rfl))
  case stopping =>
    intro stopping
    rcases ok.stopping stopping with pending | ⟨requested, none⟩
    · exact .inl (exists_update pending (by rw [here]; rfl))
    · exact .inr ⟨requested, fun other =>
        after_update (CallerPc.clearing · = false) calm.1 fun _ => none other⟩
  case spawned => exact fun _ => .inl (by rw [spawned_append silent, spawned, Bool.true_or])
  case stopped => exact fun stopped => absurd (.inr stopped) (ok.up starts)
  case requested =>
    exact fun other requesting => ok.requested other
      (before_update (CallerPc.requesting · = true) (by simp [calm.2.1]) requesting)
  case apart => exact fun left _ waiting => absurd waiting (quiet left)
  case joinable => exact HandlesKept.spawns ok.joinable
  case joined =>
    exact fun other past => absurd (CallerPc.task_of_joined past) (quiet other)
  case down => exact fun down => absurd down (ok.up starts)
  case alone =>
    intro left right leftStarts rightStarts
    rw [mine left leftStarts, mine right rightStarts]

theorem LifecycleOk.storesStopping (ok : LifecycleOk trace server)
    (here : server.callers thread = .storeStopping) :
    LifecycleOk (trace ++ []) ({ server with state := .stopping }.goto thread .requestStop) := by
  have pending : (Function.update server.callers thread .requestStop thread).requesting = true := by
    rw [Function.update_self]
    rfl
  exact ok.writes rfl (by rw [here]; rfl) nofun (fun _ => .inl ⟨thread, pending⟩) nofun nofun
    (fun _ _ => .inl rfl) nofun rfl (fun _ => .rfl) (ok.joinable.frame rfl rfl fun _ => id) nofun
    fun down => by rcases down with down | down <;> cases down

/-- `shutdown` requests a stop: `state_` is not `running`, since no start has won meanwhile. -/
theorem LifecycleOk.requestsStop (ok : LifecycleOk trace server)
    (here : server.callers thread = .requestStop)
    (unclear : ∀ other, (server.callers other).clearing = false) :
    LifecycleOk (trace ++ [.stopRequested thread])
      ({ server with stopRequested := true }.goto thread .notifyAll) := by
  have since := ok.requested thread (by rw [here]; rfl)
  have up : server.state ≠ .running := by
    rcases since with state | state <;> simp [state]
  refine ok.writes rfl (by rw [here]; rfl) (fun running => absurd running up)
    (fun _ => .inr ⟨rfl, fun other => ?_⟩) (fun running => absurd running up)
    (fun stopped other => ?_) (fun _ _ => since) nofun rfl (fun _ => .rfl)
    (ok.joinable.frame rfl rfl fun _ => id) nofun ok.down
  · exact after_update (CallerPc.clearing · = false) rfl fun _ => unclear other
  · exact after_update (CallerPc.passing · = false) rfl fun _ => ok.stopped stopped other

/-- `wait` has joined every worker, and no `start` can have spawned another. -/
theorem LifecycleOk.storesStopped (ok : LifecycleOk trace server)
    (here : server.callers thread = .storeStopped)
    (tested : ∀ other, (server.callers other).passing = false) :
    LifecycleOk (trace ++ [.waitReturned thread])
      ({ server with state := .stopped }.goto thread .idle) := by
  have waits : (server.callers thread).task = .wait := by rw [here]; rfl
  have dead := ok.joined thread (by rw [here]; rfl)
  refine ok.writes rfl (by rw [here]; rfl) nofun nofun nofun (fun _ other => ?_)
    (fun _ _ => .inr rfl) nofun rfl (fun _ => .rfl) (ok.joinable.frame rfl rfl fun _ => id) nofun
    fun _ => ⟨dead, fun other => ok.apart thread other waits⟩
  exact after_update (CallerPc.passing · = false) rfl fun _ => tested other

theorem LifecycleOk.caller (ok : LifecycleOk trace server) {wakes : Nat}
    (permitted : ordered trace server (.caller thread wakes))
    (moved : CallerMove config server thread next events) : LifecycleOk (trace ++ events) next := by
  obtain ⟨free, unclear, tested⟩ := permitted
  have handles : next.HandlesKept := HandlesKept.caller ok.joinable moved
  cases moved with
  | created here fresh => exact ok.starts (.inl ⟨here, fresh⟩) (free (.inl ⟨here, fresh⟩))
  | restarted here was => exact ok.starts (.inr ⟨here, was⟩) (free (.inr ⟨here, was⟩))
  | clearsStop here => exact ok.clears here
  | spawns here more => exact ok.spawns here (.inl rfl) rfl rfl
  | spawnsLast here last => exact ok.spawns here (.inr rfl) rfl rfl
  | storesStopping here => exact ok.storesStopping here
  | requestsStop here => exact ok.requestsStop here (unclear here)
  | storesStopped here => exact ok.storesStopped here (tested here)
  | notStopped here was =>
      -- the early return of `shutdown` is not taken
      exact ok.goto rfl rfl rfl rfl (fun _ => .rfl) handles (by rw [here]; exact ⟨rfl, rfl⟩)
        ⟨rfl, rfl⟩ (by rw [here]; rfl) (fun _ stopped => was (.inl stopped))
        (by simp [CallerPc.task]) (by simp [CallerPc.joined]) rfl
  | clearsQueued here =>
      exact ok.goto rfl rfl rfl rfl (fun _ => .rfl) handles (by rw [here]; exact ⟨rfl, rfl⟩)
        ⟨rfl, rfl⟩ (by rw [here]; rfl) (by simp [CallerPc.passing]) (by simp [CallerPc.task])
        (by simp [CallerPc.joined]) rfl
  | clearsWorkers here joined =>
      exact ok.passes rfl rfl rfl rfl (fun _ => .rfl) handles (by rw [here]; rfl) rfl
        (fun _ => .inl (by rw [here]; rfl))
        (fun _ => HandlesKept.all_finished ok.joinable joined) rfl
  | readsState here was =>
      exact ok.passes rfl rfl rfl rfl (fun _ => .rfl) handles (by rw [here]; rfl) rfl
        (fun _ => .inl (by rw [here]; rfl)) (fun _ => ok.joined thread (by rw [here]; rfl)) rfl
  | terminates here unjoined =>
      refine { ok with spawned := ?_, joinable := handles }
      exact ok.spawned_later (fun running => running) (fun _ => rfl) rfl
  | checksState here =>
      obtain ⟨task, notJoined, _⟩ := afterState_task server config (server.submission thread)
      exact ok.passes rfl rfl rfl rfl (fun _ => .rfl) handles (by rw [here]; rfl)
        (CallerPc.plain_of_submit task) (by simp [task]) (by simp [notJoined]) rfl
  | notifiesAll here =>
      exact ok.passes rfl rfl rfl rfl (fun _ => finished_wakeAll) handles (by rw [here]; rfl) rfl
        (by simp [CallerPc.task]) (by simp [CallerPc.joined]) rfl
  | notifiesOne here picked =>
      exact ok.passes rfl rfl rfl rfl (fun _ => finished_notified picked) handles
        (by rw [here]; rfl) rfl (by simp [CallerPc.task]) (by simp [CallerPc.joined]) rfl
  | notCreated here other | startRefused here other | storesMode here | alreadyStopped here was
  | joinedAll here past | joins here found done | joinedBefore here found | readsFailed here was
  | seesFull here | seesRoom here | pushes here | pushFails here | counts here | accepts here
  | notifiesNobody here | rejects here =>
      exact ok.passes rfl rfl rfl rfl (fun _ => .rfl) handles (by rw [here]; rfl) rfl
        (by simp [here, CallerPc.task]) (by simp [CallerPc.joined]) rfl

theorem LifecycleOk.step (ok : LifecycleOk trace server) (eventsOk : EventsOk trace server)
    {action : ServerAction Thread} (permitted : ordered trace server action)
    (moved : Move config server action next events) : LifecycleOk (trace ++ events) next := by
  have handles : next.HandlesKept := HandlesKept.step ok.joinable moved
  cases moved with
  | call here entry =>
      cases entry with
      | wait =>
          exact ok.passes rfl rfl rfl rfl (fun _ => .rfl) handles (by rw [here]; rfl) rfl
            (fun _ => .inr permitted) (by simp [CallerPc.joined]) rfl
      | start | shutdown | trySubmit =>
          exact ok.passes rfl rfl rfl rfl (fun _ => .rfl) handles (by rw [here]; rfl) rfl
            (by simp [CallerPc.task]) (by simp [CallerPc.joined]) rfl
  | caller moved => exact ok.caller permitted moved
  | worker moved => exact ok.worker eventsOk moved
  | @wake id here =>
      have present : server.loops id ≠ .absent ∧ server.loops id ≠ .finished := by simp [here]
      exact ok.loop (eventsOk.alive present.1) present.2 rfl rfl rfl rfl rfl rfl rfl

omit [DecidableEq Thread] in
theorem LifecycleOk.initial : LifecycleOk [] (Server.initial : Server Thread) := by
  constructor
  case running => nofun
  case stopping => nofun
  case spawned => nofun
  case stopped => nofun
  case requested => nofun
  case apart => nofun
  case joinable => exact fun _ bound => absurd bound (Nat.not_lt_zero _)
  case joined => nofun
  case down => exact fun _ => ⟨fun _ bound => absurd bound (Nat.not_lt_zero _), fun _ => rfl⟩
  case alone => nofun

theorem lifecycle_ok (reached : (serverMachine config Thread).Reaches ordered trace server) :
    EventsOk trace server ∧ LifecycleOk trace server := by
  refine reached.invariant (fun trace server => EventsOk trace server ∧ LifecycleOk trace server)
    ⟨.initial, .initial⟩ ?_
  rintro _ _ _ _ _ ⟨eventsOk, ok⟩ permitted stepped
  have moved := (step_move stepped).2
  exact ⟨eventsOk.step moved, ok.step eventsOk permitted moved⟩

omit [DecidableEq Thread] in
theorem settled_outside (settled : server.Settled) (holds : CallerPc → Bool)
    (inside : ∀ pc : CallerPc, holds pc = true → pc.task = .start ∨ pc.task = .shutdown) :
    ¬∃ thread, holds (server.callers thread) = true := by
  rintro ⟨thread, here⟩
  rcases settled thread with none | submits <;> rcases inside _ here with task | task <;> simp_all

/-- A `shutdown` past its test is at its store only while the server is not stopped. -/
theorem LifecycleOk.not_back (ok : LifecycleOk trace server) {action : ServerAction Thread}
    (moved : Move config server action next events) (stopped : server.state = .stopped) :
    next.state ≠ .stopping := by
  have unchanged : next.state = server.state → next.state ≠ .stopping := by
    intro same
    simp [same, stopped]
  cases moved with
  | @call thread _ _ _ here entry => exact unchanged rfl
  | @caller thread _ _ _ moved =>
      cases moved with
      | storesStopping here =>
          have outside := ok.stopped stopped thread
          rw [here] at outside
          cases outside
      | created here fresh | restarted here was | storesStopped here => nofun
      | _ => exact unchanged rfl
  | worker moved => cases moved <;> exact unchanged rfl
  | wake here => exact unchanged rfl

/-- In an ordered run `state_` tells the truth whenever no lifecycle call is in progress,
and never goes back from stopped to stopping. -/
theorem lifecycle_consistent
    (reached : (serverMachine config Thread).Reaches ordered trace server) :
    (server.Settled → server.LifecycleConsistent trace) ∧
      ∀ action next events, server.step config action = some (next, events) →
        server.state = .stopped → next.state ≠ .stopping := by
  obtain ⟨eventsOk, ok⟩ := lifecycle_ok reached
  constructor
  · intro settled
    have notClearing := settled_outside settled CallerPc.clearing fun pc here => by
      cases pc <;> simp_all [CallerPc.clearing, CallerPc.task]
    have notRequesting := settled_outside settled CallerPc.requesting fun pc here => by
      cases pc <;> simp_all [CallerPc.requesting, CallerPc.task]
    have notStarting := settled_outside settled CallerPc.starting fun pc here => by
      cases pc <;> simp_all [CallerPc.starting, CallerPc.task]
    constructor
    case running =>
      intro running
      exact ⟨(ok.running running).resolve_right notClearing,
        (ok.spawned running).resolve_right notStarting⟩
    case stopping => exact fun stopping => ((ok.stopping stopping).resolve_left notRequesting).1
    case stopped =>
      intro stopped id
      rcases Nat.lt_or_ge id server.spawned with spawned | beyond
      · exact .inr ((ok.down (.inr stopped)).1 id spawned)
      · exact .inl (eventsOk.absent id beyond)
  · intro action next events stepped
    exact ok.not_back (step_move stepped).2

end Callers

instance [DecidableEq Thread] [Fintype Thread] (trace : List (ServerEvent Thread))
    (server : Server Thread) (action : ServerAction Thread) :
    Decidable (oneWait trace server action) :=
  match action with
  | .wait _ => inferInstanceAs (Decidable (∀ _, _))
  | .start _ | .trySubmit _ | .shutdown _ _ | .caller _ _ | .worker _ _ | .wake _ => .isTrue trivial

instance (server : Server Thread) (thread : Thread) : Decidable (server.Wins thread) :=
  inferInstanceAs (Decidable (_ ∨ _))

instance [DecidableEq Thread] [Fintype Thread] (trace : List (ServerEvent Thread))
    (server : Server Thread) (action : ServerAction Thread) :
    Decidable (ordered trace server action) :=
  match action with
  | .wait _ => inferInstanceAs (Decidable (∀ _, _))
  | .caller _ _ => inferInstanceAs (Decidable (_ ∧ _ ∧ _))
  | .start _ | .trySubmit _ | .shutdown _ _ | .worker _ _ | .wake _ => .isTrue trivial

instance [Fintype Thread] (server : Server Thread) : Decidable server.Settled :=
  inferInstanceAs (Decidable (∀ _, _))

def lostStopSchedule : List (ServerAction Bool) :=
  [ServerAction.start false, .caller false 0, .shutdown true .graceful] ++
    List.replicate 5 (ServerAction.caller true 0) ++
    List.replicate 3 (ServerAction.caller false 0)

theorem lostStopSchedule_runs :
    ((serverMachine sampleConfig Bool).exec oneWait []
      (serverMachine sampleConfig Bool).start lostStopSchedule).isSome = true := by
  decide +kernel

/-- The stop request is lost: the server is stopping and no worker is told. -/
theorem lifecycle_inconsistent :
    ¬∀ trace (server : Server Bool),
      (serverMachine sampleConfig Bool).Reaches oneWait trace server →
      server.Settled → server.LifecycleConsistent trace := by
  intro always
  have consistent := always _ _ (EventMachine.reaches_of_isSome lostStopSchedule_runs)
    (by decide +kernel)
  exact absurd (consistent.stopping (by decide +kernel)) (by decide +kernel)

def restartSchedule : List (ServerAction Bool) :=
  [ServerAction.start false] ++ List.replicate 4 (ServerAction.caller false 0) ++
    [ServerAction.shutdown true .graceful] ++ List.replicate 5 (ServerAction.caller true 0) ++
    List.replicate 4 (ServerAction.worker 0 true) ++ [ServerAction.wait false] ++
    List.replicate 5 (ServerAction.caller false 0) ++ [ServerAction.start true] ++
    List.replicate 5 (ServerAction.caller true 0)

theorem restartSchedule_runs :
    ((serverMachine sampleConfig Bool).exec ordered []
      (serverMachine sampleConfig Bool).start restartSchedule).isSome = true := by
  decide +kernel

theorem lifecycle_consistent_sample :
    (Option.get _ restartSchedule_runs).2.stopRequested = false ∧
      spawnedSinceStart (Option.get _ restartSchedule_runs).1 = true :=
  ((lifecycle_consistent (EventMachine.reaches_of_isSome restartSchedule_runs)).1
    (by decide +kernel)).running (by decide +kernel)

end Server

end MyServer
