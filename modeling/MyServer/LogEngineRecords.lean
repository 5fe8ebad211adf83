import MyServer.LogEngineMemory

/-!
The records in a run of the engine: what each transition of `enqueue` and of
`worker_loop` does to the places of the pool's records.
-/

namespace MyServer

variable {Thread : Type}

section Traces

variable {trace : List (EngineEvent Thread)} {event : EngineEvent Thread} {record : LogRecord}

theorem queuedRecords_queued {envelope : Envelope Thread} :
    queuedRecords (trace ++ [.queued envelope record]) = queuedRecords trace ++ [record] := by
  simp [queuedRecords, EngineEvent.queuedRecord?]

theorem takenRecords_queued {envelope : Envelope Thread} :
    takenRecords (trace ++ [.queued envelope record]) = takenRecords trace := by
  simp [takenRecords, List.filterMap_cons, EngineEvent.taken?]

theorem queuedRecords_taken : queuedRecords (trace ++ [.taken record]) = queuedRecords trace := by
  simp [queuedRecords, List.filterMap_cons, EngineEvent.queuedRecord?]

theorem takenRecords_taken :
    takenRecords (trace ++ [.taken record]) = takenRecords trace ++ [record] := by
  simp [takenRecords, EngineEvent.taken?]

theorem waiting_queued {envelope : Envelope Thread}
    (bound : (takenRecords trace).length ≤ (queuedRecords trace).length) :
    waitingRecords (trace ++ [.queued envelope record]) = waitingRecords trace ++ [record] := by
  rw [waitingRecords, queuedRecords_queued, takenRecords_queued,
    List.drop_append_of_le_length bound, waitingRecords]

theorem waiting_taken :
    waitingRecords (trace ++ [.taken record]) = (waitingRecords trace).tail := by
  rw [waitingRecords, queuedRecords_taken, takenRecords_taken, waitingRecords, List.tail_drop,
    List.length_append, List.length_singleton]

end Traces

namespace LogEngine

variable [DecidableEq Thread]

def Unstarted (state : AtomicEngine Thread) : Prop :=
  state.generation = 0 ∧ ∀ thread, state.clients thread ≠ .allocatePool

/-- The engine is started at most once, and no `queue_.push` overlaps `queue_.reset`. -/
def calm (_ : List (EngineEvent Thread)) (state : AtomicEngine Thread) :
    EngineAction Thread → Prop
  | .client thread _ =>
      match state.clients thread with
      | .ensureRunning => state.run = false → state.Unstarted
      | .construct _ => (state.workers 0).consumer.resetting = false
      | _ => True
  | .worker id _ =>
      match state.workers id with
      | .pop true _ pc => (state.queue.popStep pc).2 = .inr none →
          ∀ thread, (state.clients thread).pusher = none
      | _ => True
  | _ => True

structure MemoryOk (poolSize : Nat) (trace : List (EngineEvent Thread))
    (state : AtomicEngine Thread) : Prop where
  placed : ∃ place, (state.view (waitingRecords trace)).Ok poolSize place
  taken : (takenRecords trace).length ≤ (queuedRecords trace).length

variable {state : AtomicEngine Thread} {thread : Thread} {pc : AtomicClient}
variable {pending : List LogRecord}

theorem view_goto (state : AtomicEngine Thread) (thread : Thread) (pc : AtomicClient)
    (pending : List LogRecord) :
    (state.goto thread pc).view pending =
      { state.view pending with
        held := Function.update (state.view pending).held thread pc.held
        pusher := Function.update (state.view pending).pusher thread pc.pusher
        start := Function.update (state.view pending).start thread pc.start } := by
  simp only [view, goto, reads_update ClientPc.held, reads_update ClientPc.pusher,
    reads_update ClientPc.start]

theorem update_same {Value : Type} (read : Thread → Value) {value : Value}
    (same : value = read thread) : Function.update read thread value = read := by
  rw [same, Function.update_eq_self]

theorem view_goto_start (held : pc.held = (state.clients thread).held)
    (pusher : pc.pusher = (state.clients thread).pusher) :
    (state.goto thread pc).view pending =
      { state.view pending with
        start := Function.update (state.view pending).start thread pc.start } := by
  rw [view_goto, update_same (state.view pending).held held,
    update_same (state.view pending).pusher pusher]

theorem view_goto_push (start : pc.start = (state.clients thread).start) :
    (state.goto thread pc).view pending =
      { state.view pending with
        held := Function.update (state.view pending).held thread pc.held
        pusher := Function.update (state.view pending).pusher thread pc.pusher } := by
  rw [view_goto, update_same (state.view pending).start start]

theorem view_goto_held (pusher : pc.pusher = (state.clients thread).pusher)
    (start : pc.start = (state.clients thread).start) :
    (state.goto thread pc).view pending =
      { state.view pending with
        held := Function.update (state.view pending).held thread pc.held } := by
  rw [view_goto_push start, update_same (state.view pending).pusher pusher]

theorem view_goto_same (held : pc.held = (state.clients thread).held)
    (pusher : pc.pusher = (state.clients thread).pusher)
    (start : pc.start = (state.clients thread).start) :
    (state.goto thread pc).view pending = state.view pending := by
  rw [view_goto_held pusher start, update_same (state.view pending).held held]

variable {trace : List (EngineEvent Thread)} {poolSize : Nat} {next : AtomicEngine Thread}
variable {events : List (EngineEvent Thread)}

omit [DecidableEq Thread] in
theorem MemoryOk.silent (ok : MemoryOk poolSize trace state)
    (queued : queuedRecords events = []) (taken : takenRecords events = [])
    (placed : ∃ place, (next.view (waitingRecords trace)).Ok poolSize place) :
    MemoryOk poolSize (trace ++ events) next := by
  have queuedSame : queuedRecords (trace ++ events) = queuedRecords trace := by
    rw [queuedRecords, List.filterMap_append, ← queuedRecords, ← queuedRecords, queued,
      List.append_nil]
  have takenSame : takenRecords (trace ++ events) = takenRecords trace := by
    rw [takenRecords, List.filterMap_append, ← takenRecords, ← takenRecords, taken,
      List.append_nil]
  constructor
  · rwa [waitingRecords, queuedSame, takenSame, ← waitingRecords]
  · rw [queuedSame, takenSame]
    exact ok.taken

omit [DecidableEq Thread] in
theorem MemoryOk.plain (ok : MemoryOk poolSize trace state)
    (queued : queuedRecords events = []) (taken : takenRecords events = [])
    (same : ∀ pending, next.view pending = state.view pending) :
    MemoryOk poolSize (trace ++ events) next :=
  ok.silent queued taken (by rw [same]; exact ok.placed)

omit [DecidableEq Thread] in
theorem start_fillFrom (state : AtomicEngine Thread) (index : Nat) :
    (state.fillFrom poolSize index).start =
      some (MemoryView.startFrom state.generation poolSize index) := by
  unfold fillFrom MemoryView.startFrom
  split <;> rfl

omit [DecidableEq Thread] in
theorem held_fillFrom (state : AtomicEngine Thread) (index : Nat) :
    (state.fillFrom poolSize index).held = none := by
  unfold fillFrom
  split <;> rfl

omit [DecidableEq Thread] in
theorem pusher_fillFrom (state : AtomicEngine Thread) (index : Nat) :
    (state.fillFrom poolSize index).pusher = none := by
  unfold fillFrom
  split <;> rfl

omit [DecidableEq Thread] in
theorem view_pusher {push : PushPc LogRecord} (here : state.clients thread = .push push) :
    (state.view pending).pusher thread = some push := by
  simp [view, here, ClientPc.pusher]

theorem MemoryOk.client (ok : MemoryOk poolSize trace state) {spurious : Bool}
    (permitted : calm trace state (.client thread spurious))
    (moved : ClientMove poolSize state thread next events) :
    MemoryOk poolSize (trace ++ events) next := by
  obtain ⟨place, placed⟩ := ok.placed
  cases moved with
  | alreadyRunning here up =>
      exact ok.plain rfl rfl fun _ => view_goto_same (by rw [here]; rfl) (by rw [here]; rfl)
        (by rw [here]; rfl)
  | starts here down =>
      simp only [calm, here] at permitted
      obtain ⟨fresh, none⟩ := permitted down
      refine ok.silent rfl rfl ⟨place, ?_⟩
      rw [view_goto_start (by rw [here]; rfl) (by rw [here]; rfl)]
      apply placed.starts fresh
      intro other allocating
      apply none other
      change (state.clients other).start = some .allocate at allocating
      cases pc : state.clients other <;> simp_all [ClientPc.start]
  | allocates here =>
      refine ok.silent rfl rfl ?_
      rw [view_goto_start (by rw [held_fillFrom, here]; rfl) (by rw [pusher_fillFrom, here]; rfl),
        start_fillFrom]
      exact placed.allocates (by simp [view, here, ClientPc.start])
  | fills here ran => exact absurd (atomic_push ran).2 (by simp)
  | filled here ran =>
      obtain ⟨rfl, _⟩ := atomic_push ran
      refine ok.silent rfl rfl ?_
      rw [view_goto_start (by rw [held_fillFrom, here]; rfl) (by rw [pusher_fillFrom, here]; rfl),
        start_fillFrom]
      exact placed.filled (by simp [view, here, ClientPc.start])
  | spawns here =>
      refine ok.silent rfl rfl ⟨place, ?_⟩
      rw [view_goto_start (by rw [here]; rfl) (by rw [here]; rfl)]
      exact placed.spawns (by simp [view, here, ClientPc.start])
  | assigns here free =>
      exact ok.plain rfl rfl fun _ => view_goto_same (by rw [here]; rfl) (by rw [here]; rfl)
        (by rw [here]; rfl)
  | terminates here taken => exact ok.plain rfl rfl fun _ => rfl
  | acquires here ran => exact absurd (atomic_pop ran).2 (by simp)
  | misses here ran =>
      obtain ⟨rfl, missed⟩ := atomic_pop ran
      have none : state.freelist = [] := List.head?_eq_none_iff.mp (Sum.inr.inj missed).symm
      apply ok.plain rfl rfl
      intro pending
      rw [view_goto_same (by rw [here]; rfl) (by rw [here]; rfl) (by rw [here]; rfl)]
      simp [view, none]
  | @obtains _ _ _ record here ran =>
      obtain ⟨rfl, taken⟩ := atomic_pop ran
      obtain ⟨rest, list⟩ : ∃ rest, state.freelist = record :: rest :=
        List.head?_eq_some_iff.mp (Sum.inr.inj taken).symm
      refine ok.silent rfl rfl ?_
      rw [view_goto_held (by rw [here]; rfl) (by rw [here]; rfl)]
      have empty : (state.view (waitingRecords trace)).held thread = none := by
        simp [view, here, ClientPc.held]
      have obtained := placed.obtains list empty (by simp [view, here, ClientPc.pusher])
      simpa [view, list, ClientPc.held] using obtained
  | drops here =>
      exact ok.plain rfl rfl fun _ => view_goto_same (by rw [here]; rfl) (by rw [here]; rfl)
        (by rw [here]; rfl)
  | constructs here =>
      simp only [calm, here] at permitted
      refine ok.silent rfl rfl ⟨place, ?_⟩
      rw [view_goto_push (by rw [here]; rfl),
        update_same (MemoryView.held _) (by simp [view, here, ClientPc.held, PushPc.held])]
      exact placed.begins (by simp [view, here, ClientPc.held])
        (by simp [view, here, ClientPc.pusher]) permitted
  | clears here =>
      refine ok.silent rfl rfl ?_
      rw [view_goto_push (by rw [here]; rfl)]
      have cleared := placed.pushStep (view_pusher here)
      simp only [PushPc.appended, List.append_nil] at cleared
      exact cleared
  | exchanges here =>
      have exchanged := placed.pushStep (view_pusher here)
      constructor
      · rw [waiting_queued ok.taken, view_goto_push (by rw [here]; rfl)]
        exact exchanged
      · have bound := ok.taken
        rw [queuedRecords_queued, takenRecords_queued, List.length_append]
        omega
  | links here =>
      refine ok.silent rfl rfl ?_
      rw [view_goto_push (by rw [here]; rfl)]
      have linked := placed.pushStep (view_pusher here)
      simp only [PushPc.appended, List.append_nil] at linked
      exact linked
  | counts here =>
      exact ok.plain rfl rfl fun _ => view_goto_same (by rw [here]; rfl) (by rw [here]; rfl)
        (by rw [here]; rfl)
  | stops here up =>
      exact ok.plain rfl rfl fun _ => view_goto_same (by rw [here]; rfl) (by rw [here]; rfl)
        (by rw [here]; rfl)
  | stoppedBefore here down =>
      exact ok.plain rfl rfl fun _ => view_goto_same (by rw [here]; rfl) (by rw [here]; rfl)
        (by rw [here]; rfl)
  | notJoinable here free =>
      exact ok.plain rfl rfl fun _ => view_goto_same (by rw [here]; rfl) (by rw [here]; rfl)
        (by rw [here]; rfl)
  | joins here mine done =>
      exact ok.plain rfl rfl fun _ => view_goto_same (by rw [here]; rfl) (by rw [here]; rfl)
        (by rw [here]; rfl)

omit [DecidableEq Thread] in
theorem MemoryOk.worker_zero (ok : MemoryOk poolSize trace state) {id : Nat}
    (alive : state.workers id ≠ .absent) : id = 0 := by
  obtain ⟨place, placed⟩ := ok.placed
  by_contra other
  have once : state.spawned ≤ 1 := placed.started.spawnedOnce
  exact alive (placed.started.absent id (show state.spawned ≤ id by omega))

omit [DecidableEq Thread] in
/-- The worker takes the record that waits longest. -/
theorem MemoryOk.front (ok : MemoryOk poolSize trace state) {id : Nat} {drain : Bool}
    {pending : Option LogRecord} {pc : PopPc LogRecord} {queue : MpscQueue LogRecord}
    {record : LogRecord} (here : state.workers id = .pop drain pending pc)
    (ran : state.queue.popStep pc = (queue, .inr (some (.record record)))) :
    waitingRecords trace = record :: (waitingRecords trace).tail := by
  obtain ⟨place, placed⟩ := ok.placed
  obtain rfl := ok.worker_zero (show state.workers id ≠ .absent by simp [here])
  have phase : QueueWorld.Phase ⟨state.queue, fun thread => (state.clients thread).pusher,
    (state.workers 0).consumer⟩ (waitingRecords trace) := placed.queue.phase
  rw [here] at phase
  have result := phase.1.popStep phase.2
  rw [ran] at result
  cases result with
  | takes _ rest front chain => rw [front, List.tail_cons]

theorem deliver_recycles (drain : Bool) (pending : Option LogRecord) (record old : LogRecord)
    (pushed : (deliver drain pending record : AtomicWorker).pushing = some old) :
    (deliver drain pending record : AtomicWorker).recycling = some old := by
  cases pending with
  | none => cases pushed
  | some _ => exact pushed

theorem afterReset_recycles (pending : Option LogRecord) (old : LogRecord)
    (pushed : (afterReset pending : AtomicWorker).pushing = some old) :
    (afterReset pending : AtomicWorker).recycling = some old := by
  cases pending with
  | none => cases pushed
  | some _ => exact pushed

omit [DecidableEq Thread] in
theorem MemoryOk.worker (ok : MemoryOk poolSize trace state) {id : Nat} {spurious : Bool}
    (permitted : calm trace state (.worker id spurious))
    (moved : WorkerMove state id next events) :
    MemoryOk poolSize (trace ++ events) next := by
  obtain ⟨place, placed⟩ := ok.placed
  have alive : state.workers id ≠ .absent := by
    cases moved <;> simp_all
  obtain rfl := ok.worker_zero alive
  have phase : QueueWorld.Phase ⟨state.queue, fun thread => (state.clients thread).pusher,
    (state.workers 0).consumer⟩ (waitingRecords trace) := placed.queue.phase
  have dummy : state.queue.head = (state.workers 0).dummy := placed.queue.dummy
  cases moved with
  | keepsRunning here up | seesStop here down =>
      rw [here] at phase dummy
      exact ok.silent rfl rfl ⟨place, placed.workerStays alive (by simp [view, here]; rfl)
        (by simp [view, here]; rfl) ⟨phase, trivial⟩ dummy (by simp [WorkerPc.pushing])⟩
  | @checks _ _ later here ran =>
      rw [here] at phase dummy
      have sound : later.Sound state.queue := by
        rcases phase.1.emptyStep phase.2 with ⟨other, goes, sound⟩ | answers | ⟨answers, _⟩
        · rw [ran] at goes
          exact Sum.inl.inj goes ▸ sound
        · simp [ran] at answers
        · simp [ran] at answers
      exact ok.silent rfl rfl ⟨place, placed.workerStays alive (by simp [view, here]; rfl)
        (by simp [view, here]; rfl) ⟨phase.1, sound⟩ dummy (by simp [WorkerPc.pushing])⟩
  | checked here ran =>
      rw [here] at phase dummy
      exact ok.silent rfl rfl ⟨place, placed.workerStays alive (by simp [view, here]; rfl)
        (by simp [view, here]; rfl) ⟨phase.1, trivial⟩ dummy (by simp [WorkerPc.pushing])⟩
  | pops here ran =>
      rw [here] at phase dummy
      have result := phase.1.popStep phase.2
      rw [ran] at result
      cases result with
      | continues _ sound =>
          exact ok.silent rfl rfl ⟨place, placed.workerStays alive (by simp [view, here]; rfl)
            (by simp [view, here]; rfl) ⟨phase.1, sound⟩ dummy (by simp [WorkerPc.pushing])⟩
  | sleeps here ran =>
      rw [here] at phase dummy
      have result := phase.1.popStep phase.2
      rw [ran] at result
      cases result with
      | null _ =>
          exact ok.silent rfl rfl ⟨place, placed.workerStays alive (by simp [view, here]; rfl)
            (by simp [view, here]; rfl) phase.1 dummy (by simp [WorkerPc.pushing])⟩
  | drained here ran =>
      simp only [calm, here, ran, forall_const] at permitted
      rw [here] at phase dummy
      have result := phase.1.popStep phase.2
      rw [ran] at result
      cases result with
      | null empty =>
          exact ok.silent rfl rfl ⟨place, placed.workerStays alive (by simp [view, here]; rfl)
            (by simp [view, here]; rfl) ⟨empty, permitted, trivial⟩ dummy
            (by simp [WorkerPc.pushing])⟩
  | @takes drain pending pc queue record here ran =>
      rw [here] at phase dummy
      have result := phase.1.popStep phase.2
      rw [ran] at result
      cases result with
      | takes _ rest front chain =>
          have nodup : (record :: rest).Nodup := by
            have whole := phase.1.nodup
            rw [front, MpscQueue.chain, List.nodup_cons] at whole
            exact List.Nodup.of_map _ whole.2
          constructor
          · rw [waiting_taken]
            have taken := placed.takes (deliver drain pending record) alive front
              (by simp [view, here]; rfl) (by cases pending <;> rfl)
              (by rw [show (state.view (waitingRecords trace)).workers 0 = _ from here]
                  cases pending <;> rfl)
              (by cases pending <;> exact chain) (by cases pending <;> rfl) nodup
              (deliver_recycles drain pending record)
            rw [front]
            exact taken
          · have some : 0 < (waitingRecords trace).length := by simp [front]
            rw [waitingRecords, List.length_drop] at some
            rw [queuedRecords_taken, takenRecords_taken, List.length_append, List.length_singleton]
            omega
  | recycles here ran => exact absurd (atomic_push ran).2 (by simp)
  | recycled here ran =>
      obtain ⟨rfl, _⟩ := atomic_push ran
      have mine := placed.queue.recycles _ (by simp [view, here]; rfl)
      rw [here] at phase dummy
      exact ok.silent rfl rfl (placed.givesBack alive mine (by simp [view, here]; rfl) rfl phase
        dummy rfl)
  | submits here read | destroys here read =>
      rw [here] at phase dummy
      exact ok.silent rfl rfl ⟨place, placed.workerStays alive (by simp [view, here]; rfl)
        (by simp [view, here]; rfl) phase dummy (by simp [WorkerPc.pushing])⟩
  | @written drain record here =>
      rw [here] at phase dummy
      refine ok.silent rfl rfl (placed.retires record alive (by simp [view, here]; rfl)
        (by simp [view, here]; rfl) ?_ ?_ ?_ ?_ ?_)
      · cases drain <;> rfl
      · cases drain <;> rfl
      · cases drain
        · exact phase
        · exact ⟨phase, trivial⟩
      · cases drain <;> exact dummy
      · cases drain <;> rfl
  | @resets _ pc _ _ here ran =>
      rw [here] at phase dummy
      obtain ⟨empty, quiet, sound⟩ := phase
      cases pc with
      | clearStub =>
          cases ran
          have null : Function.update state.queue.next .stub none .stub = none := by simp
          exact ok.silent rfl rfl ⟨place, placed.workerStays alive (by simp [view, here]; rfl)
            (by simp [view, here]; rfl) ⟨empty, quiet, null⟩ dummy
            (by simp [WorkerPc.pushing])⟩
      | setHead =>
          cases ran
          exact ok.silent rfl rfl ⟨place, placed.workerStays alive (by simp [view, here]; rfl)
            (by simp [view, here]; rfl) ⟨empty, quiet, sound, rfl⟩ rfl (by simp [WorkerPc.pushing])⟩
      | setTail => simp [MpscQueue.resetStep] at ran
  | @wasReset pending pc _ here ran =>
      rw [here] at phase dummy
      obtain ⟨empty, quiet, sound⟩ := phase
      cases pc with
      | clearStub | setHead => simp [MpscQueue.resetStep] at ran
      | setTail =>
          cases ran
          have producers : (fun thread => (state.clients thread).pusher) = fun _ => none :=
            funext quiet
          have chain : MpscQueue.Chain { state.queue with tail := .stub } (waitingRecords trace)
              (fun thread => (state.clients thread).pusher) := by
            rw [empty, producers]
            obtain ⟨null, head⟩ : state.queue.next .stub = none ∧ state.queue.head = .stub := sound
            exact .fresh head.symm (by simp [null, head])
          refine ok.silent rfl rfl ⟨place, placed.workerStays alive ?_ ?_ ?_ ?_ ?_⟩
          · rw [show (state.view (waitingRecords trace)).workers 0 = _ from here]
            cases pending <;> rfl
          · rw [show (state.view (waitingRecords trace)).workers 0 = _ from here]
            cases pending <;> rfl
          · cases pending <;> exact chain
          · cases pending <;> exact sound.2
          · exact afterReset_recycles pending
  | recyclesLast here ran => exact absurd (atomic_push ran).2 (by simp)
  | finishes here ran =>
      obtain ⟨rfl, _⟩ := atomic_push ran
      have mine := placed.queue.recycles _ (by simp [view, here]; rfl)
      rw [here] at phase dummy
      exact ok.silent rfl rfl (placed.givesBack alive mine (by simp [view, here]; rfl) rfl phase
        dummy rfl)

omit [DecidableEq Thread] in
theorem MemoryOk.initial : MemoryOk poolSize [] (LogEngine.initial : AtomicEngine Thread) := by
  refine ⟨⟨fun _ => none, ?_, ?_, ?_⟩, Nat.le_refl _⟩
  · constructor
    case generations => exact Nat.zero_le _
    case spawnedOnce => exact Nat.zero_le _
    case absent => exact fun _ _ => rfl
    all_goals simp [view, LogEngine.initial, ClientPc.start]
  · constructor
    case pool => simp [MemoryView.InPool, view, LogEngine.initial]
    case located =>
      intro here record
      cases here <;> simp [MemoryView.At, MemoryView.Unfilled, MemoryView.InPool, view, LogEngine.initial,
        ClientPc.held, WorkerPc.current, WorkerPc.recycling, waitingRecords, queuedRecords,
        atomicFreeList]
    case freeNodup => exact List.nodup_nil
  · constructor
    case phase => exact MpscQueue.Chain.fresh rfl rfl
    case dummy => rfl
    case pushes => simp [view, LogEngine.initial, ClientPc.pusher]
    case recycles => simp [view, LogEngine.initial, WorkerPc.pushing]

theorem MemoryOk.step (ok : MemoryOk poolSize trace state) {action : EngineAction Thread}
    (permitted : calm trace state action) (moved : Move poolSize state action next events) :
    MemoryOk poolSize (trace ++ events) next := by
  cases moved with
  | enqueue here | shutdown here =>
      exact ok.plain rfl rfl fun _ => view_goto_same (by rw [here]; rfl) (by rw [here]; rfl)
        (by rw [here]; rfl)
  | client moved => exact ok.client permitted moved
  | worker moved => exact ok.worker permitted moved

end LogEngine

end MyServer
