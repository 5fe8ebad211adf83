import MyServer.ServerEvents
import Mathlib.Data.Fintype.Basic
import Mathlib.Data.List.TakeWhile

/-!
Runs with one `start` that returns before any `trySubmit` is called and that no `wait`
overlaps: when the workers exist, and what a `wait` past its loop knows about them.
-/

namespace MyServer

variable {Thread : Type}

inductive Task
  | none
  | start
  | shutdown
  | wait
  | submit
  deriving DecidableEq

namespace CallerPc

def task : CallerPc → Task
  | .idle => .none
  | .exchangeCreated | .exchangeStopped | .clearStop | .clearQueued | .spawn _ => .start
  | .storeMode _ | .testState | .storeStopping | .requestStop | .notifyAll => .shutdown
  | .join _ | .clearWorkers | .readState | .storeStopped => .wait
  | _ => .submit

def entering : CallerPc → Bool
  | .exchangeCreated | .exchangeStopped => true
  | _ => false

def admitted : CallerPc → Bool
  | .checkDepth | .tryPush | .countQueued | .countAccepted | .notifyOne => true
  | _ => false

def joined : CallerPc → Bool
  | .readState | .storeStopped => true
  | _ => false

theorem task_of_admitted {pc : CallerPc} (admitted : pc.admitted = true) : pc.task = .submit := by
  cases pc with
  | checkDepth | tryPush | countQueued | countAccepted | notifyOne => rfl
  | _ => cases admitted

theorem task_of_joined {pc : CallerPc} (joined : pc.joined = true) : pc.task = .wait := by
  cases pc with
  | readState | storeStopped => rfl
  | _ => cases joined

end CallerPc

namespace ServerEvent

def isStartCalled : ServerEvent Thread → Bool
  | .startCalled _ => true
  | _ => false

def isStartReturned : ServerEvent Thread → Bool
  | .startReturned _ _ => true
  | _ => false

def isWaitReturned : ServerEvent Thread → Bool
  | .waitReturned _ => true
  | _ => false

end ServerEvent

namespace Server

/-- `start` is called once and has returned when `trySubmit` is called; `wait` does not
overlap it. -/
def startsOnce (trace : List (ServerEvent Thread)) (server : Server Thread) :
    ServerAction Thread → Prop
  | .start _ => trace.any ServerEvent.isStartCalled = false ∧
      ∀ thread, (server.callers thread).task ≠ .wait
  | .wait _ => trace.any ServerEvent.isStartCalled = true →
      trace.any ServerEvent.isStartReturned = true
  | .trySubmit _ => trace.any ServerEvent.isStartReturned = true
  | _ => True

def waited (trace : List (ServerEvent Thread)) : Bool :=
  (trace.dropWhile fun event => !event.isStartReturned).any ServerEvent.isWaitReturned

structure StartView (Thread : Type) where
  called : Bool
  returned : Bool
  running : Bool
  spawned : Nat
  pushed : List (Submission Thread)
  callers : Thread → CallerPc

namespace StartView

inductive Ok (view : StartView Thread) : Prop
  | before (called : view.called = false) (returned : view.returned = false)
      (down : view.running = false) (none : view.spawned = 0) (empty : view.pushed = [])
      (tasks : ∀ thread, (view.callers thread).task ≠ .start ∧
        (view.callers thread).task ≠ .submit)
  | during (starter : Thread) (called : view.called = true) (returned : view.returned = false)
      (starts : (view.callers starter).task = .start)
      (entering : (view.callers starter).entering = true → view.running = false)
      (empty : view.pushed = [])
      (tasks : ∀ thread, thread ≠ starter → (view.callers thread).task = .none ∨
        (view.callers thread).task = .shutdown)
  | started (called : view.called = true) (returned : view.returned = true)
      (some : 0 < view.spawned) (tasks : ∀ thread, (view.callers thread).task ≠ .start)
  | refused (called : view.called = true) (returned : view.returned = true)
      (down : view.running = false) (empty : view.pushed = [])
      (tasks : ∀ thread, (view.callers thread).task ≠ .start)
      (turned : ∀ thread, (view.callers thread).admitted = false)

variable {view : StartView Thread} {thread : Thread}

/-- A thread in `trySubmit` finds the start over. -/
theorem Ok.returned (ok : view.Ok) (submitting : (view.callers thread).task = .submit) :
    view.returned = true := by
  cases ok with
  | before _ _ _ _ _ tasks => exact absurd submitting (tasks thread).2
  | during starter _ _ starts _ _ tasks =>
      by_cases same : thread = starter
      · subst same
        simp [starts] at submitting
      · rcases tasks thread same with task | task <;> simp [task] at submitting
  | started _ returned | refused _ returned => exact returned

/-- An admitted call finds a worker. -/
theorem Ok.spawned (ok : view.Ok) (admitted : (view.callers thread).admitted = true) :
    0 < view.spawned := by
  have returned := ok.returned (CallerPc.task_of_admitted admitted)
  cases ok with
  | before _ no | during _ _ no => simp [returned] at no
  | started _ _ some _ => exact some
  | refused _ _ _ _ _ turned => simp [turned] at admitted

theorem Ok.starting (ok : view.Ok) (starts : (view.callers thread).task = .start) :
    view.called = true ∧ view.returned = false ∧ view.pushed = [] ∧
      ((view.callers thread).entering = true → view.running = false) ∧
      ∀ other, other ≠ thread → (view.callers other).task = .none ∨
        (view.callers other).task = .shutdown := by
  cases ok with
  | before _ _ _ _ _ tasks => exact absurd starts (tasks thread).1
  | during starter called returned _ entering empty tasks =>
      have same : thread = starter := by
        by_contra different
        rcases tasks thread different with task | task <;> simp [task] at starts
      subst same
      exact ⟨called, returned, empty, entering, tasks⟩
  | started _ _ _ tasks | refused _ _ _ _ tasks => exact absurd starts (tasks thread)

variable [DecidableEq Thread]

theorem Ok.goes (ok : view.Ok) {pc : CallerPc} {running : Bool}
    (before : (view.callers thread).task ≠ .start)
    (task : pc.task = (view.callers thread).task ∨ pc.task = .none ∨ pc.task = .shutdown ∨
      pc.task = .wait ∧ view.called = false ∨ view.returned = true ∧ pc.task ≠ .start)
    (kept : running = true → view.running = true)
    (admitted : pc.admitted = true →
      (view.callers thread).admitted = true ∨ view.running = true) :
    Ok { view with
      running := running
      callers := Function.update view.callers thread pc } := by
  have down : view.running = false → running = false := by
    intro was
    cases running with
    | false => rfl
    | true => simp [was] at kept
  have notStart : pc.task ≠ .start := by
    rcases task with same | none | shuts | ⟨waits, _⟩ | ⟨_, other⟩
    · rwa [same]
    · simp [none]
    · simp [shuts]
    · simp [waits]
    · exact other
  have others : (∀ other, (view.callers other).task ≠ .start) → ∀ other,
      (Function.update view.callers thread pc other).task ≠ .start := by
    intro was other
    by_cases same : other = thread
    · simpa [same] using notStart
    · simpa [same] using was other
  cases ok with
  | before called returned was none empty tasks =>
      refine .before called returned (down was) none empty fun other => ?_
      by_cases same : other = thread
      · subst same
        refine ⟨by simpa using notStart, ?_⟩
        rcases task with same | none | shuts | ⟨waits, _⟩ | ⟨late, _⟩
        · simpa [same] using (tasks other).2
        · simp [none]
        · simp [shuts]
        · simp [waits]
        · simp [returned] at late
      · simpa [same] using tasks other
  | during starter called returned starts entering empty tasks =>
      have different : starter ≠ thread := by
        rintro rfl
        exact before starts
      refine .during starter called returned (by simpa [different] using starts) ?_ empty
        fun other apart => ?_
      · intro enters
        exact down (entering (by simpa [different] using enters))
      · by_cases same : other = thread
        · subst same
          rcases task with same | none | shuts | ⟨_, early⟩ | ⟨late, _⟩
          · simpa [same] using tasks other apart
          · simp [none]
          · simp [shuts]
          · simp [called] at early
          · simp [returned] at late
        · simpa [same] using tasks other apart
  | started called returned some tasks => exact .started called returned some (others tasks)
  | refused called returned was empty tasks turned =>
      refine .refused called returned (down was) empty (others tasks) ?_
      intro other
      by_cases same : other = thread
      · subst same
        change (Function.update view.callers other pc other).admitted = false
        rw [Function.update_self, ← Bool.not_eq_true]
        intro admits
        rcases admitted admits with earlier | running
        · simp [turned] at earlier
        · simp [was] at running
      · simpa [same] using turned other

theorem Ok.enters (ok : view.Ok) (early : view.called = false)
    (alone : ∀ other, (view.callers other).task ≠ .wait) :
    Ok { view with
      called := true
      callers := Function.update view.callers thread .exchangeCreated } := by
  cases ok with
  | before _ returned down _ empty tasks =>
      refine .during thread rfl returned (by simp [CallerPc.task]) (fun _ => down) empty ?_
      intro other different
      have outside := tasks other
      have notWaiting := alone other
      cases task : (view.callers other).task <;> simp_all
  | during _ called | started called | refused called => simp [early] at called

theorem Ok.startsOn (ok : view.Ok) (starts : (view.callers thread).task = .start) {pc : CallerPc}
    {running : Bool} {spawned : Nat} (task : pc.task = .start)
    (entering : pc.entering = true → running = false) :
    Ok { view with
      running := running
      spawned := spawned
      callers := Function.update view.callers thread pc } := by
  obtain ⟨called, returned, empty, _, tasks⟩ := ok.starting starts
  refine .during thread called returned (by simpa using task) (by simpa using entering) empty ?_
  intro other different
  simpa [different] using tasks other different

theorem Ok.startReturns (ok : view.Ok) (starts : (view.callers thread).task = .start)
    {spawned : Nat} (outcome : 0 < spawned ∨ (view.callers thread).entering = true) :
    Ok { view with
      returned := true
      spawned := spawned
      callers := Function.update view.callers thread .idle } := by
  obtain ⟨called, _, empty, entering, tasks⟩ := ok.starting starts
  have idle : ∀ other, (Function.update view.callers thread .idle other).task ≠ .start := by
    intro other
    by_cases same : other = thread
    · simp [same, CallerPc.task]
    · rcases tasks other same with task | task <;> simp [same, task]
  rcases outcome with some | refused
  · exact .started called rfl some idle
  · refine .refused called rfl (entering refused) empty idle ?_
    intro other
    refine after_update (CallerPc.admitted · = false) rfl fun different => ?_
    rw [← Bool.not_eq_true]
    intro admitted
    have submitting := CallerPc.task_of_admitted admitted
    rcases tasks other different with task | task <;> simp [task] at submitting

omit [DecidableEq Thread] in
theorem Ok.pushes (ok : view.Ok) (admitted : (view.callers thread).admitted = true)
    (pushed : List (Submission Thread)) : Ok { view with pushed := pushed } := by
  have returned := ok.returned (CallerPc.task_of_admitted admitted)
  cases ok with
  | before _ no | during _ _ no => simp [returned] at no
  | started called returned some tasks => exact .started called returned some tasks
  | refused _ _ _ _ _ turned => simp [turned] at admitted

end StartView

def startView (server : Server Thread) (trace : List (ServerEvent Thread)) : StartView Thread where
  called := trace.any ServerEvent.isStartCalled
  returned := trace.any ServerEvent.isStartReturned
  running := server.state = .running
  spawned := server.spawned
  pushed := pushedEvents trace
  callers := server.callers

/-- A worker that may still run has a joinable handle; a `wait` past its loop and one that
returned after the start find every worker finished. -/
structure StartOk (trace : List (ServerEvent Thread)) (server : Server Thread) : Prop where
  phase : (server.startView trace).Ok
  joinable : ∀ id, id < server.spawned → server.loops id ≠ .finished → ⟨id, true⟩ ∈ server.workers
  joined : ((∃ thread, (server.callers thread).joined = true) ∨ waited trace = true) →
    ∀ id, id < server.spawned → server.loops id = .finished

variable {trace events : List (ServerEvent Thread)} {server next : Server Thread}
variable {config : ServerConfig} {thread : Thread} {id : Nat}

/-! The handles of the workers. -/

/-- A handle that cannot be joined any more does not hide another one. -/
theorem mem_set_handle {handles : List WorkerHandle} {index : Nat} {done other : Nat}
    (found : handles[index]? = some ⟨done, true⟩) (different : other ≠ done)
    (inside : ⟨other, true⟩ ∈ handles) : ⟨other, true⟩ ∈ handles.set index ⟨done, false⟩ := by
  obtain ⟨position, at_⟩ := List.mem_iff_getElem?.mp inside
  refine List.mem_iff_getElem?.mpr ⟨position, ?_⟩
  have apart : index ≠ position := by
    rintro rfl
    rw [found] at at_
    exact different (by simpa [eq_comm] using at_)
  rw [List.getElem?_set_ne apart]
  exact at_

def HandlesKept (server : Server Thread) : Prop :=
  ∀ id, id < server.spawned → server.loops id ≠ .finished → ⟨id, true⟩ ∈ server.workers

theorem HandlesKept.frame (kept : server.HandlesKept) (spawned : next.spawned = server.spawned)
    (workers : next.workers = server.workers)
    (finished : ∀ id, server.loops id = .finished → next.loops id = .finished) :
    next.HandlesKept := by
  intro id bound running
  rw [spawned] at bound
  rw [workers]
  exact kept id bound fun done => running (finished id done)

theorem HandlesKept.all_finished (kept : server.HandlesKept)
    (joined : server.workers.any WorkerHandle.joinable = false) (id : Nat)
    (bound : id < server.spawned) : server.loops id = .finished := by
  by_contra running
  exact absurd rfl (List.any_eq_false.mp joined _ (kept id bound running))

theorem HandlesKept.loop (kept : server.HandlesKept) {pc : LoopPc Thread}
    (unfinished : server.loops id ≠ .finished)
    (loops : next.loops = Function.update server.loops id pc)
    (spawned : next.spawned = server.spawned) (workers : next.workers = server.workers) :
    next.HandlesKept := by
  refine kept.frame spawned workers fun other done => ?_
  have different : other ≠ id := by
    rintro rfl
    exact unfinished done
  rw [loops, Function.update_of_ne different]
  exact done

section Handles

variable [DecidableEq Thread]

theorem finished_wakeAll {loops : Nat → LoopPc Thread} :
    wakeAll loops id = .finished ↔ loops id = .finished := by
  unfold wakeAll
  split
  · rename_i blocked
    simp [blocked]
  · rfl

omit [DecidableEq Thread] in
theorem finished_notified {wakes : Nat} {loops : Nat → LoopPc Thread}
    (picked : loops wakes = .blocked) :
    Function.update loops wakes .notified id = .finished ↔ loops id = .finished := by
  have same : (LoopPc.notified = (.finished : LoopPc Thread)) = (loops wakes = .finished) := by
    rw [picked]
    simp
  rw [reads_same (· = LoopPc.finished) same]

theorem HandlesKept.spawns (kept : server.HandlesKept) {pc : CallerPc} :
    HandlesKept ({ server with
      workers := server.workers ++ [WorkerHandle.mk server.spawned true]
      loops := Function.update server.loops server.spawned .tryPop
      spawned := server.spawned + 1 }.goto thread pc) := by
  intro id (bound : id < server.spawned + 1) running
  by_cases same : id = server.spawned
  · subst same
    exact List.mem_append_right _ (List.mem_singleton.mpr rfl)
  · refine List.mem_append_left _ (kept id (by omega) ?_)
    simpa [Server.goto, same] using running

theorem HandlesKept.caller (kept : server.HandlesKept)
    (moved : CallerMove config server thread next events) : next.HandlesKept := by
  cases moved with
  | spawns here more => exact kept.spawns
  | spawnsLast here last => exact kept.spawns
  | joins here found done =>
      intro id bound running
      refine mem_set_handle found ?_ (kept id bound running)
      rintro rfl
      exact running done
  | clearsWorkers here joined =>
      intro id bound running
      exact absurd (kept.all_finished joined id bound) running
  | notifiesAll here => exact kept.frame rfl rfl fun _ => finished_wakeAll.mpr
  | @notifiesOne wakes here picked =>
      have unfinished : server.loops wakes ≠ .finished := by rw [picked]; nofun
      exact kept.loop unfinished rfl rfl rfl
  | _ => exact kept.frame rfl rfl fun _ => id

theorem HandlesKept.step (kept : server.HandlesKept) {action : ServerAction Thread}
    (moved : Move config server action next events) : next.HandlesKept := by
  cases moved with
  | call here entry => exact kept.frame rfl rfl fun _ => id
  | caller moved => exact kept.caller moved
  | worker moved =>
      have unfinished := moved.present.2
      cases moved with
      | _ => exact kept.loop unfinished rfl rfl rfl
  | wake here => exact kept.loop (by rw [here]; nofun) rfl rfl rfl

end Handles

/-! The invariant. -/

theorem waited_returned (afterWait : waited trace = true) :
    trace.any ServerEvent.isStartReturned = true := by
  by_contra never
  have dropped : (trace.dropWhile fun event => !event.isStartReturned) = [] := by
    rw [List.dropWhile_eq_nil_iff]
    intro event inside
    rw [Bool.not_eq_true, List.any_eq_false] at never
    simpa using never event inside
  simp [waited, dropped] at afterWait

theorem waited_append (afterWait : waited (trace ++ events) = true) :
    waited trace = true ∨ events.any ServerEvent.isWaitReturned = true := by
  unfold waited at afterWait ⊢
  rw [List.dropWhile_append] at afterWait
  split at afterWait
  · obtain ⟨event, inside, returned⟩ := List.any_eq_true.mp afterWait
    exact .inr (List.any_eq_true.mpr
      ⟨event, (List.dropWhile_sublist _).subset inside, returned⟩)
  · rwa [List.any_append, Bool.or_eq_true] at afterWait

/-- While the server starts, no `wait` is under way or has returned after a start. -/
theorem StartOk.no_wait (ok : StartOk trace server)
    (starts : (server.callers thread).task = .start) :
    ¬((∃ other, (server.callers other).joined = true) ∨ waited trace = true) := by
  obtain ⟨_, early, _, _, tasks⟩ := ok.phase.starting starts
  rintro (⟨other, joined⟩ | afterWait)
  · have waiting := CallerPc.task_of_joined joined
    by_cases same : other = thread
    · subst same
      rw [starts] at waiting
      cases waiting
    · have task : (server.callers other).task = .none ∨ (server.callers other).task = .shutdown :=
        tasks other same
      rw [waiting] at task
      rcases task with task | task <;> cases task
  · have returned : (server.startView trace).returned = true := waited_returned afterWait
    rw [early] at returned
    cases returned

/-- After a `wait` past its loop no worker can move. -/
theorem StartOk.no_move (ok : StartOk trace server) (events : EventsOk trace server)
    (present : server.loops id ≠ .absent) (unfinished : server.loops id ≠ .finished) :
    ¬((∃ other, (server.callers other).joined = true) ∨ waited trace = true) := fun afterWait =>
  unfinished (ok.joined afterWait id (events.alive present))

/-- While the server starts nothing has been counted or discounted. -/
theorem StartOk.even (ok : StartOk trace server) (events : EventsOk trace server)
    (starts : (server.callers thread).task = .start) :
    (countedEvents trace).length = (discountedEvents trace).length := by
  have empty : pushedEvents trace = [] := (ok.phase.starting starts).2.2.1
  have counted : (countedEvents trace).length ≤ (pushedEvents trace).length :=
    events.events.counted_le
  have discounted : (discountedEvents trace).length ≤ (poppedEvents trace).length :=
    events.events.discounted_le
  have order : pushedEvents trace = poppedEvents trace ++ server.queue := events.events.order
  have lengths := congrArg List.length order
  rw [empty, List.length_append, List.length_nil] at lengths
  rw [empty, List.length_nil] at counted
  omega

theorem waited_silent (silent : events.any ServerEvent.isWaitReturned = false)
    (afterWait : waited (trace ++ events) = true) : waited trace = true :=
  (waited_append afterWait).resolve_right (by simp [silent])

/-- Events that neither push nor begin or end a start leave the view alone. -/
theorem startView_quiet (server : Server Thread) (pushed : pushedEvents events = [])
    (notCalled : events.any ServerEvent.isStartCalled = false)
    (notReturned : events.any ServerEvent.isStartReturned = false) :
    server.startView (trace ++ events) = server.startView trace := by
  rw [startView, startView, any_silent notCalled, any_silent notReturned, pushedEvents_append,
    pushed, List.append_nil]

theorem StartOk.loop (ok : StartOk trace server) (eventsOk : EventsOk trace server)
    {pc : LoopPc Thread} (present : server.loops id ≠ .absent)
    (unfinished : server.loops id ≠ .finished)
    (loops : next.loops = Function.update server.loops id pc)
    (callers : next.callers = server.callers) (state : next.state = server.state)
    (spawned : next.spawned = server.spawned) (workers : next.workers = server.workers)
    (pushed : pushedEvents events = [])
    (notCalled : events.any ServerEvent.isStartCalled = false)
    (notReturned : events.any ServerEvent.isStartReturned = false)
    (notWaited : events.any ServerEvent.isWaitReturned = false) :
    StartOk (trace ++ events) next where
  phase := by
    rw [startView_quiet next pushed notCalled notReturned, startView, callers, state, spawned]
    exact ok.phase
  joinable := HandlesKept.loop ok.joinable unfinished loops spawned workers
  joined := by
    rw [callers]
    intro afterWait
    refine absurd ?_ (ok.no_move eventsOk present unfinished)
    exact afterWait.imp_right (waited_silent notWaited)

theorem StartOk.worker (ok : StartOk trace server) (eventsOk : EventsOk trace server)
    (moved : LoopMove config server id next events) : StartOk (trace ++ events) next := by
  have present := moved.present
  cases moved with
  | _ =>
      exact ok.loop eventsOk present.1 present.2 rfl rfl rfl rfl rfl rfl rfl rfl rfl

section Callers

variable [DecidableEq Thread]

theorem StartOk.goto (ok : StartOk trace server) {pc : CallerPc}
    (callers : next.callers = Function.update server.callers thread pc)
    (phase : (next.startView (trace ++ events)).Ok)
    (finished : ∀ id, next.loops id = .finished ↔ server.loops id = .finished)
    (spawned : next.spawned = server.spawned) (handles : next.HandlesKept)
    (past : pc.joined = true ∨ events.any ServerEvent.isWaitReturned = true →
      ∀ id, id < server.spawned → server.loops id = .finished) :
    StartOk (trace ++ events) next where
  phase := phase
  joinable := handles
  joined := by
    intro afterWait id bound
    rw [spawned] at bound
    rw [finished]
    rcases afterWait with ⟨other, joined⟩ | returned
    · rw [callers] at joined
      rcases of_update (CallerPc.joined · = true) joined with ⟨-, now⟩ | before
      · exact past (.inl now) id bound
      · exact ok.joined (.inl ⟨other, before⟩) id bound
    · rcases waited_append returned with before | now
      · exact ok.joined (.inr before) id bound
      · exact past (.inr now) id bound

theorem StartOk.plain (ok : StartOk trace server) {pc : CallerPc}
    (callers : next.callers = Function.update server.callers thread pc)
    (phase : (next.startView (trace ++ events)).Ok)
    (loops : next.loops = server.loops) (spawned : next.spawned = server.spawned)
    (workers : next.workers = server.workers) (notJoined : pc.joined = false)
    (notWaited : events.any ServerEvent.isWaitReturned = false) :
    StartOk (trace ++ events) next := by
  have finished : ∀ id, next.loops id = .finished ↔ server.loops id = .finished := by
    intro id
    rw [loops]
  have handles : next.HandlesKept :=
    HandlesKept.frame ok.joinable spawned workers fun id => (finished id).mpr
  refine ok.goto callers phase finished spawned handles ?_
  simp [notJoined, notWaited]

theorem StartOk.phase_goes (ok : StartOk trace server) {pc : CallerPc}
    (before : (server.callers thread).task ≠ .start)
    (task : pc.task = (server.callers thread).task ∨ pc.task = .none ∨ pc.task = .shutdown ∨
      pc.task = .wait ∧ trace.any ServerEvent.isStartCalled = false ∨
      trace.any ServerEvent.isStartReturned = true ∧ pc.task ≠ .start)
    (kept : next.state = .running → server.state = .running)
    (admitted : pc.admitted = true →
      (server.callers thread).admitted = true ∨ server.state = .running)
    (callers : next.callers = Function.update server.callers thread pc)
    (spawned : next.spawned = server.spawned) (notPushed : pushedEvents events = [])
    (notCalled : events.any ServerEvent.isStartCalled = false)
    (notReturned : events.any ServerEvent.isStartReturned = false) :
    (next.startView (trace ++ events)).Ok := by
  rw [startView_quiet next notPushed notCalled notReturned, startView, callers, spawned]
  refine ok.phase.goes before task ?_ ?_
  · intro runs
    exact decide_eq_true (kept (of_decide_eq_true runs))
  · intro admits
    rcases admitted admits with earlier | running
    · exact .inl earlier
    · exact .inr (decide_eq_true running)

theorem StartOk.outside (ok : StartOk trace server) {pc : CallerPc}
    (before : (server.callers thread).task ≠ .start)
    (task : pc.task = (server.callers thread).task ∨ pc.task = .none ∨ pc.task = .shutdown ∨
      pc.task = .wait ∧ trace.any ServerEvent.isStartCalled = false ∨
      trace.any ServerEvent.isStartReturned = true ∧ pc.task ≠ .start)
    (callers : next.callers = Function.update server.callers thread pc)
    (kept : next.state = .running → server.state = .running)
    (admitted : pc.admitted = true →
      (server.callers thread).admitted = true ∨ server.state = .running)
    (loops : next.loops = server.loops) (spawned : next.spawned = server.spawned)
    (workers : next.workers = server.workers) (notJoined : pc.joined = false)
    (notPushed : pushedEvents events = [])
    (notCalled : events.any ServerEvent.isStartCalled = false)
    (notReturned : events.any ServerEvent.isStartReturned = false)
    (notWaited : events.any ServerEvent.isWaitReturned = false) :
    StartOk (trace ++ events) next :=
  ok.plain callers (ok.phase_goes before task kept admitted callers spawned notPushed notCalled
    notReturned) loops spawned workers notJoined notWaited

omit [DecidableEq Thread] in
theorem afterState_task (server : Server Thread) (config : ServerConfig)
    (event : Submission Thread) :
    (server.afterState config event).task = .submit ∧
      (server.afterState config event).joined = false ∧
      ((server.afterState config event).admitted = true → server.state = .running) := by
  unfold afterState
  split
  · simp [CallerPc.task, CallerPc.joined, CallerPc.admitted]
  · rename_i running
    have running : server.state = .running := not_ne_iff.mp running
    split
    · simp [CallerPc.task, CallerPc.joined, running]
    · split <;> simp [CallerPc.task, CallerPc.joined, running]

theorem StartOk.phase_starts (ok : StartOk trace server) {pc : CallerPc}
    (starts : (server.callers thread).task = .start) (task : pc.task = .start)
    (entering : pc.entering = true → next.state ≠ .running)
    (callers : next.callers = Function.update server.callers thread pc)
    (notPushed : pushedEvents events = [])
    (notCalled : events.any ServerEvent.isStartCalled = false)
    (notReturned : events.any ServerEvent.isStartReturned = false) :
    (next.startView (trace ++ events)).Ok := by
  rw [startView_quiet next notPushed notCalled notReturned, startView, callers]
  exact ok.phase.startsOn starts task fun enters => decide_eq_false (entering enters)

theorem StartOk.phase_returns (ok : StartOk trace server)
    (starts : (server.callers thread).task = .start)
    (outcome : 0 < next.spawned ∨ (server.callers thread).entering = true)
    (callers : next.callers = Function.update server.callers thread .idle)
    (state : next.state = server.state) (notPushed : pushedEvents events = [])
    (notCalled : events.any ServerEvent.isStartCalled = false)
    (returned : events.any ServerEvent.isStartReturned = true) :
    (next.startView (trace ++ events)).Ok := by
  have seen : next.startView (trace ++ events) =
      { next.startView trace with returned := true } := by
    rw [startView, startView, any_silent notCalled, pushedEvents_append, notPushed,
      List.append_nil, List.any_append, returned, Bool.or_true]
  rw [seen, startView, callers, state]
  exact ok.phase.startReturns starts outcome

theorem StartOk.spawns (ok : StartOk trace server) {pc : CallerPc} {i : Nat}
    (here : server.callers thread = .spawn i)
    (phase : (({ server with
        workers := server.workers ++ [WorkerHandle.mk server.spawned true]
        loops := Function.update server.loops server.spawned .tryPop
        spawned := server.spawned + 1 }.goto thread pc).startView (trace ++ events)).Ok)
    (notJoined : pc.joined = false)
    (notWaited : events.any ServerEvent.isWaitReturned = false) :
    StartOk (trace ++ events)
      ({ server with
          workers := server.workers ++ [WorkerHandle.mk server.spawned true]
          loops := Function.update server.loops server.spawned .tryPop
          spawned := server.spawned + 1 }.goto thread pc) where
  phase := phase
  joinable := HandlesKept.spawns ok.joinable
  joined := by
    intro afterWait
    refine absurd ?_ (ok.no_wait (show (server.callers thread).task = .start by rw [here]; rfl))
    rcases afterWait with ⟨other, joined⟩ | returned
    · exact .inl ⟨other, before_update (CallerPc.joined · = true) (by simp [notJoined]) joined⟩
    · exact .inr (waited_silent notWaited returned)

theorem StartOk.phase_pushes (ok : StartOk trace server)
    (here : server.callers thread = .tryPush) {event : Submission Thread}
    (callers : next.callers = Function.update server.callers thread .countQueued)
    (state : next.state = server.state) (spawned : next.spawned = server.spawned) :
    (next.startView (trace ++ [.pushed event])).Ok := by
  have seen : next.startView (trace ++ [.pushed event]) =
      { server.startView trace with
        pushed := pushedEvents trace ++ [event]
        callers := Function.update server.callers thread .countQueued } := by
    simp [startView, pushedEvents, ServerEvent.isStartCalled, ServerEvent.isStartReturned,
      ServerEvent.pushed?, callers, state, spawned]
  have admitted : ((server.startView trace).callers thread).admitted = true :=
    congrArg CallerPc.admitted here
  rw [seen]
  exact (ok.phase.pushes admitted (pushedEvents trace ++ [event])).goes
    (by simp [startView, here, CallerPc.task]) (.inl (by simp [startView, here, CallerPc.task])) id
    (fun _ => .inl admitted)

theorem StartOk.clears (ok : StartOk trace server) (here : server.callers thread = .clearWorkers)
    (joined : server.workers.any WorkerHandle.joinable = false)
    (handles : HandlesKept ({ server with workers := [] }.goto thread .readState)) :
    StartOk (trace ++ []) ({ server with workers := [] }.goto thread .readState) := by
  refine ok.goto rfl ?_ (fun _ => .rfl) rfl handles ?_
  · exact ok.phase_goes (by simp [here, CallerPc.task]) (by simp [here, CallerPc.task]) id
      (by simp [CallerPc.admitted]) rfl rfl rfl rfl rfl
  · exact fun _ => HandlesKept.all_finished ok.joinable joined

theorem StartOk.past (ok : StartOk trace server) (here : (server.callers thread).joined = true)
    {pc : CallerPc} (callers : next.callers = Function.update server.callers thread pc)
    (task : pc.task = .wait ∨ pc.task = .none)
    (kept : next.state = .running → server.state = .running) (loops : next.loops = server.loops)
    (spawned : next.spawned = server.spawned) (workers : next.workers = server.workers)
    (notPushed : pushedEvents events = [])
    (notCalled : events.any ServerEvent.isStartCalled = false)
    (notReturned : events.any ServerEvent.isStartReturned = false) :
    StartOk (trace ++ events) next := by
  have waiting := CallerPc.task_of_joined here
  have finished : ∀ id, next.loops id = .finished ↔ server.loops id = .finished := by
    intro id
    rw [loops]
  have handles : next.HandlesKept :=
    HandlesKept.frame ok.joinable spawned workers fun id => (finished id).mpr
  refine ok.goto callers ?_ finished spawned handles ?_
  · refine ok.phase_goes (by simp [waiting]) ?_ kept ?_ callers spawned notPushed notCalled
      notReturned
    · rcases task with same | none
      · exact .inl (same.trans waiting.symm)
      · exact .inr (.inl none)
    · intro admits
      simp [CallerPc.task_of_admitted admits] at task
  · exact fun _ => ok.joined (.inl ⟨thread, here⟩)

theorem StartOk.caller (ok : StartOk trace server)
    (moved : CallerMove config server thread next events) : StartOk (trace ++ events) next := by
  have handles : next.HandlesKept := HandlesKept.caller ok.joinable moved
  cases moved with
  | created here fresh | restarted here was | clearsStop here | clearsQueued here =>
      exact ok.plain rfl (ok.phase_starts (by rw [here]; rfl) rfl (by simp [CallerPc.entering]) rfl
        rfl rfl rfl) rfl rfl rfl rfl rfl
  | notCreated here other =>
      have starts : (server.callers thread).task = .start := by rw [here]; rfl
      have down : (server.startView trace).running = false :=
        (ok.phase.starting starts).2.2.2.1 (by simp [startView, here, CallerPc.entering])
      exact ok.plain rfl (ok.phase_starts starts rfl (fun _ => of_decide_eq_false down) rfl rfl rfl
        rfl) rfl rfl rfl rfl rfl
  | startRefused here other =>
      exact ok.plain rfl (ok.phase_returns (by rw [here]; rfl)
        (.inr (by simp [here, CallerPc.entering])) rfl rfl rfl rfl rfl) rfl rfl rfl rfl rfl
  | spawns here more =>
      exact ok.spawns here (ok.phase_starts (by rw [here]; rfl) rfl (by simp [CallerPc.entering])
        rfl rfl rfl rfl) rfl rfl
  | spawnsLast here last =>
      exact ok.spawns here (ok.phase_returns (by rw [here]; rfl) (.inl (Nat.succ_pos _)) rfl rfl rfl
        rfl rfl) rfl rfl
  | pushes here room =>
      refine ok.plain rfl ?_ rfl rfl rfl rfl rfl
      exact ok.phase_pushes here rfl rfl rfl
  | checksState here =>
      obtain ⟨task, notJoined, admitted⟩ := afterState_task server config
        (server.submission thread)
      exact ok.outside (by simp [here, CallerPc.task]) (.inl (by rw [task, here]; rfl)) rfl id
        (fun admits => .inr (admitted admits)) rfl rfl rfl notJoined rfl rfl rfl rfl
  | notifiesAll here =>
      refine ok.goto rfl ?_ (fun id => finished_wakeAll) rfl handles ?_
      · exact ok.phase_goes (by simp [here, CallerPc.task]) (.inr (.inl rfl)) id
          (by simp [CallerPc.admitted]) rfl rfl rfl rfl rfl
      · simp [CallerPc.joined, ServerEvent.isWaitReturned]
  | joins here found done =>
      refine ok.goto rfl ?_ (fun id => .rfl) rfl handles ?_
      · exact ok.phase_goes (by simp [here, CallerPc.task]) (by simp [here, CallerPc.task]) id
          (by simp [CallerPc.admitted]) rfl rfl rfl rfl rfl
      · simp [CallerPc.joined]
  | clearsWorkers here joined => exact ok.clears here joined handles
  | terminates here unjoined =>
      constructor
      case phase =>
        rw [startView_quiet _ rfl rfl rfl]
        exact ok.phase
      case joinable => exact handles
      case joined => exact fun afterWait => ok.joined (afterWait.imp_right (waited_silent rfl))
  | readsFailed here was =>
      exact ok.past (by rw [here]; rfl) rfl (.inr rfl) id rfl rfl rfl rfl rfl rfl
  | readsState here was =>
      exact ok.past (by rw [here]; rfl) rfl (.inl rfl) id rfl rfl rfl rfl rfl rfl
  | storesStopped here =>
      exact ok.past (by rw [here]; rfl) rfl (.inr rfl) (by simp [Server.goto]) rfl rfl rfl rfl rfl rfl
  | @notifiesOne wakes here picked =>
      refine ok.goto rfl ?_ (fun id => finished_notified picked) rfl handles ?_
      · exact ok.phase_goes (by simp [here, CallerPc.task]) (.inr (.inl rfl)) id
          (by simp [CallerPc.admitted]) rfl rfl rfl rfl rfl
      · simp [CallerPc.joined, ServerEvent.isWaitReturned]
  | notifiesNobody here | rejects here =>
      exact ok.outside (by simp [here, CallerPc.task]) (.inr (.inl rfl)) rfl id
        (by simp [CallerPc.admitted]) rfl rfl rfl rfl rfl rfl rfl rfl
  | storesMode here | alreadyStopped here | notStopped here | storesStopping here
  | requestsStop here | joinedAll here | joinedBefore here | seesFull here | seesRoom here
  | pushFails here | counts here | accepts here =>
      exact ok.outside (by simp [here, CallerPc.task]) (by simp [here, CallerPc.task]) rfl
        (by simp [Server.goto]) (by simp [here, CallerPc.admitted]) rfl rfl rfl rfl rfl rfl rfl rfl

theorem StartOk.enters (ok : StartOk trace server)
    (early : trace.any ServerEvent.isStartCalled = false)
    (alone : ∀ other, (server.callers other).task ≠ .wait) :
    StartOk (trace ++ [.startCalled thread]) (server.goto thread .exchangeCreated) := by
  refine ok.plain rfl ?_ rfl rfl rfl rfl rfl
  have seen : (server.goto thread .exchangeCreated).startView (trace ++ [.startCalled thread]) =
      { server.startView trace with
        called := true
        callers := Function.update server.callers thread .exchangeCreated } := by
    simp [startView, pushedEvents, ServerEvent.isStartCalled, ServerEvent.isStartReturned,
      ServerEvent.pushed?, Server.goto]
    rfl
  rw [seen]
  exact ok.phase.enters early alone

theorem StartOk.call (ok : StartOk trace server) {action : ServerAction Thread} {pc : CallerPc}
    {event : ServerEvent Thread} (permitted : startsOnce trace server action)
    (here : server.callers thread = .idle) (entry : Entry server thread action pc event) :
    StartOk (trace ++ [event]) (server.goto thread pc) := by
  have outside : (server.callers thread).task ≠ .start := by simp [here, CallerPc.task]
  cases entry with
  | start => exact ok.enters permitted.1 permitted.2
  | shutdown =>
      exact ok.outside outside (.inr (.inr (.inl rfl))) rfl id (by simp [CallerPc.admitted]) rfl rfl
        rfl rfl rfl rfl rfl rfl
  | wait =>
      refine ok.outside outside ?_ rfl id (by simp [CallerPc.admitted]) rfl rfl rfl rfl rfl rfl rfl
        rfl
      cases called : trace.any ServerEvent.isStartCalled with
      | false => exact .inr (.inr (.inr (.inl ⟨rfl, rfl⟩)))
      | true => exact .inr (.inr (.inr (.inr ⟨permitted called, by simp [CallerPc.task]⟩)))
  | trySubmit =>
      exact ok.outside outside (.inr (.inr (.inr (.inr ⟨permitted, by simp [CallerPc.task]⟩)))) rfl id
        (by simp [CallerPc.admitted]) rfl rfl rfl rfl rfl rfl rfl rfl

theorem StartOk.step (ok : StartOk trace server) (eventsOk : EventsOk trace server)
    {action : ServerAction Thread} (permitted : startsOnce trace server action)
    (moved : Move config server action next events) : StartOk (trace ++ events) next := by
  cases moved with
  | call here entry => exact ok.call permitted here entry
  | caller moved => exact ok.caller moved
  | worker moved => exact ok.worker eventsOk moved
  | wake here =>
      exact ok.loop eventsOk (by simp [here]) (by simp [here]) rfl rfl rfl rfl rfl rfl rfl rfl rfl

omit [DecidableEq Thread] in
theorem StartOk.initial : StartOk [] (Server.initial : Server Thread) := by
  constructor
  case phase => exact .before rfl rfl rfl rfl rfl fun _ => ⟨nofun, nofun⟩
  case joinable => exact fun _ bound => absurd bound (Nat.not_lt_zero _)
  case joined => exact fun _ _ bound => absurd bound (Nat.not_lt_zero _)

end Callers

instance [DecidableEq Thread] [Fintype Thread] (trace : List (ServerEvent Thread))
    (server : Server Thread) (action : ServerAction Thread) :
    Decidable (startsOnce trace server action) :=
  match action with
  | .start _ => inferInstanceAs (Decidable (_ ∧ _))
  | .wait _ => inferInstanceAs (Decidable (_ → _))
  | .trySubmit _ => inferInstanceAs (Decidable (_ = true))
  | .shutdown _ _ | .caller _ _ | .worker _ _ | .wake _ => .isTrue trivial

end Server

end MyServer
