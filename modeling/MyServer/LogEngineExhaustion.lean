import MyServer.LogEngineOwnership
import Mathlib.Algebra.Order.BigOperators.Group.Finset

/-!
When `enqueue` drops. A `try_pop` that finds the free list empty means that every record of
the pool is in use, once the thread that starts the engine has pushed the whole pool.
-/

namespace MyServer

variable {Thread : Type} {list : FreeListSteps LogRecord}

def ClientPc.acquiring : ClientPc list → Bool
  | .acquire _ => true
  | _ => false

namespace LogEngine

def Exhausted (poolSize : Nat) (trace : List (EngineEvent Thread)) (state : AtomicEngine Thread) :
    Prop :=
  0 < state.generation ∧ ∀ record ∈ state.pool poolSize,
    ∃ owner, owner ≠ .freeList ∧ state.Owns trace owner record

def noShutdown (_ : List (EngineEvent Thread)) (_ : AtomicEngine Thread) :
    EngineAction Thread → Prop
  | .shutdown _ => False
  | _ => True

/-- No `try_pop` finds the free list empty while the pool is being filled. -/
def patient (_ : List (EngineEvent Thread)) (state : AtomicEngine Thread) :
    EngineAction Thread → Prop
  | .shutdown _ => False
  | .client thread _ => (state.clients thread).acquiring = true → state.stack = [] →
      ∀ other, (state.clients other).filling = false
  | _ => True

variable {trace events : List (EngineEvent Thread)} {state next : AtomicEngine Thread}
variable {poolSize : Nat} {thread : Thread}

theorem noShutdown_late {action : EngineAction Thread} (permitted : noShutdown trace state action) :
    trace.any EngineEvent.isShutdownCalled = false → shutdownLast trace state action := by
  intro early
  cases action with
  | enqueue thread => exact early
  | shutdown thread => exact permitted.elim
  | client thread spurious | worker id spurious => trivial

theorem patient_noShutdown {action : EngineAction Thread} (permitted : patient trace state action) :
    noShutdown trace state action := by
  cases action with
  | shutdown thread => exact permitted
  | enqueue thread | client thread spurious | worker id spurious => trivial

theorem workerGoto_self (state : AtomicEngine Thread) (id : Nat) (pc : AtomicWorker) :
    (state.workerGoto id pc).workers id = pc := Function.update_self ..

theorem MemoryOk.worker_owns (memory : MemoryOk poolSize trace state)
    (moved : WorkerMove state 0 next events) {record : LogRecord}
    (owns : next.Owns (trace ++ events) .worker record) :
    state.Owns trace .worker record ∨ record ∈ waitingRecords trace := by
  have current : ∀ pc : AtomicWorker, next.workers 0 = pc →
      pc.current = some record ∨ pc.recycling = some record := by
    rintro pc rfl
    exact owns
  have before : ∀ pc : AtomicWorker, state.workers 0 = pc →
      pc.current = some record ∨ pc.recycling = some record → state.Owns trace .worker record := by
    rintro pc rfl
    exact id
  cases moved with
  | @takes drain pending pc queue taken here ran =>
      have after := current _ (workerGoto_self ..)
      have front : taken ∈ waitingRecords trace := by
        rw [memory.front here ran]
        exact List.mem_cons_self ..
      cases pending with
      | none =>
          have same : taken = record := by
            simpa [deliver, WorkerPc.current, WorkerPc.recycling] using after
          exact .inr (same ▸ front)
      | some old =>
          have either : taken = record ∨ old = record := by
            simpa [deliver, WorkerPc.current, WorkerPc.recycling] using after
          rcases either with same | same
          · exact .inr (same ▸ front)
          · exact .inl (before _ here (.inr (by simp [WorkerPc.recycling, same])))
  | @written drain taken here =>
      have after := current _ (workerGoto_self ..)
      have same : taken = record := by
        cases drain <;> simpa [WorkerPc.current, WorkerPc.recycling] using after
      exact .inl (before _ here (.inl (by simp [WorkerPc.current, same])))
  | @wasReset pending pc queue here ran =>
      have after := current _ (workerGoto_self ..)
      cases pending with
      | none => simp [afterReset, WorkerPc.current, WorkerPc.recycling] at after
      | some old => exact .inl (before _ here after)
  | recycled here =>
      have after := current _ (workerGoto_self ..)
      refine .inl (before _ here (.inl ?_))
      simpa [WorkerPc.current, WorkerPc.recycling] using after
  | finishes here =>
      have after := current _ (workerGoto_self ..)
      simp [WorkerPc.current, WorkerPc.recycling] at after
  | keepsRunning here | seesStop here | checks here | checked here | pops here | sleeps here
  | drained here | recycles here | submits here | destroys here | resets here | recyclesLast here =>
      have after := current _ (workerGoto_self ..)
      exact .inl (before _ here after)

def TookQueued (trace : List (EngineEvent Thread)) (state : AtomicEngine Thread) : Prop :=
  ∀ record, state.Owns trace .worker record → record ∈ queuedRecords trace

def Upright (state : AtomicEngine Thread) : Prop :=
  state.run = true → 0 < state.generation ∨ ∃ thread, state.clients thread = .allocatePool

theorem TookQueued.silent (took : TookQueued trace state)
    (same : next.workers 0 = state.workers 0) : TookQueued (trace ++ events) next := by
  intro record owns
  have before : state.Owns trace .worker record := by
    simpa [Owns, same] using owns
  rw [queuedRecords, List.filterMap_append]
  exact List.mem_append_left _ (took record before)

theorem TookQueued.worker {id : Nat} (took : TookQueued trace state)
    (memory : MemoryOk poolSize trace state) (moved : WorkerMove state id next events) :
    TookQueued (trace ++ events) next := by
  have present : state.workers id ≠ .absent := by
    cases moved <;> simp_all
  obtain rfl := memory.worker_zero present
  intro record owns
  rw [queuedRecords, List.filterMap_append]
  apply List.mem_append_left
  rcases memory.worker_owns moved owns with before | waiting
  · exact took record before
  · exact List.mem_of_mem_drop waiting

theorem Upright.worker {id : Nat} (upright : Upright state)
    (moved : WorkerMove state id next events) : Upright next := by
  rw [Upright, moved.run_same, moved.generation_same, moved.clients_same]
  exact upright

variable [DecidableEq Thread]

theorem TookQueued.client (took : TookQueued trace state)
    (memory : MemoryOk poolSize trace state)
    (moved : ClientMove poolSize state thread next events) : TookQueued (trace ++ events) next := by
  cases moved with
  | spawns here =>
      obtain ⟨place, placed⟩ := memory.placed
      have first : state.spawned = 0 :=
        placed.started.starterFirst thread (by simp [view, here, ClientPc.start])
      intro record owns
      simp [Owns, goto, first, WorkerPc.current, WorkerPc.recycling] at owns
  | _ => exact took.silent rfl

theorem Upright.goes (upright : Upright state) {pc : AtomicClient}
    (clients : next.clients = Function.update state.clients thread pc)
    (elsewhere : state.clients thread ≠ .allocatePool) (run : next.run = state.run)
    (generation : next.generation = state.generation) : Upright next := by
  intro up
  rw [generation, clients]
  rcases upright (run.symm.trans up) with allocated | ⟨other, allocating⟩
  · exact .inl allocated
  · have different : other ≠ thread := by
      rintro rfl
      exact elsewhere allocating
    exact .inr ⟨other, by simpa [different] using allocating⟩

theorem Upright.client (upright : Upright state)
    (moved : ClientMove poolSize state thread next events) : Upright next := by
  cases moved with
  | starts here down => exact fun _ => .inr ⟨thread, by simp [goto]⟩
  | allocates here => exact fun _ => .inl (Nat.succ_pos _)
  | stops here up => exact fun up => by simp [goto] at up
  | terminates here taken => exact upright
  | alreadyRunning here | fills here | filled here | spawns here | assigns here | acquires here
  | misses here | obtains here | drops here | constructs here | clears here | exchanges here
  | links here | counts here | stoppedBefore here | notJoinable here | joins here =>
      exact upright.goes rfl (by simp [here]) rfl rfl

omit [DecidableEq Thread] in
/-- A thread in `try_pop` finds the list empty: the pool is exhausted, unless it is still
being filled. -/
theorem LateOk.miss_exhausted (late : LateOk poolSize trace state) (upright : Upright state)
    {pc : Unit} (here : state.clients thread = .acquire pc) (empty : state.stack = []) :
    Exhausted poolSize trace state ↔ ∀ other, (state.clients other).filling = false := by
  obtain ⟨place, placed⟩ := late.memory.placed
  constructor
  · rintro ⟨allocated, uses⟩ other
    cases client : state.clients other with
    | allocatePool =>
        have fresh : state.generation = 0 :=
          placed.started.allocating other (by simp [view, client, ClientPc.start])
        omega
    | fillPool index node =>
        have fills : (state.view (waitingRecords trace)).start other = some (.fill index node) := by
          simp [view, client, ClientPc.start]
        have bound := (placed.started.fillNode other index node fills).2
        have inPool : (state.view (waitingRecords trace)).InPool poolSize
            ⟨state.generation, index⟩ := ⟨allocated, rfl, bound⟩
        obtain ⟨owner, notFree, owns⟩ := uses _ ((mem_pool trace).mpr inPool)
        obtain ⟨there, atThere, isThere⟩ := owns.place poolSize
        have same := placed.placed.unique .unfilled there
          ⟨other, index, node, fills, inPool, Nat.le_refl _⟩ atThere
        subst same
        cases owner <;> simp at isThere
    | _ => rfl
  · intro filled
    have up : state.run = true := by
      by_contra down
      rcases late.rest.down (by simpa using down) thread with ended | waiting
      · simp [here, ClientPc.call] at ended
      · simp [here] at waiting
    have allocated : 0 < state.generation := by
      rcases upright up with allocated | ⟨other, allocating⟩
      · exact allocated
      · have done := filled other
        simp [allocating, ClientPc.filling] at done
    refine ⟨allocated, fun record inside => ?_⟩
    obtain ⟨owner, owns, _⟩ := (late.memory.pool_owned ⟨allocated, filled⟩).owner record inside
    refine ⟨owner, ?_, owns⟩
    rintro rfl
    have free : record ∈ state.stack := owns
    simp [empty] at free

omit [DecidableEq Thread] in
theorem queuedRecords_length (trace : List (EngineEvent Thread)) :
    (queuedRecords trace).length = (queuedEnvelopes trace).length := by
  have same : ∀ event : EngineEvent Thread,
      event.queuedRecord?.isSome = event.queuedEnvelope?.isSome := by
    intro event
    cases event <;> rfl
  simp only [queuedRecords, queuedEnvelopes, List.length_filterMap_eq_countP, same]

omit [DecidableEq Thread] in
/-- With the pool exhausted, more calls have begun than the pool has records. -/
theorem Exhausted.calls [Fintype Thread] (exhausted : Exhausted poolSize trace state)
    (took : TookQueued trace state) (calls : CallsOk trace state) {pc : Unit}
    (here : state.clients thread = .acquire pc) : poolSize < (calledEnvelopes trace).length := by
  let holders := Finset.univ.filter fun other => (state.clients other).held.isSome = true
  let busy := Finset.univ.filter fun other => (state.clients other).call.isSome = true
  -- a record in use is in a producer's hands or has been in the queue
  have covered : (state.pool poolSize).toFinset ⊆
      holders.biUnion (fun other => (state.clients other).held.toFinset) ∪
        (queuedRecords trace).toFinset := by
    intro record inside
    obtain ⟨owner, notFree, owns⟩ := exhausted.2 record (List.mem_toFinset.mp inside)
    rw [Finset.mem_union, Finset.mem_biUnion, List.mem_toFinset]
    cases owner with
    | freeList => exact absurd rfl notFree
    | producer other =>
        have held : (state.clients other).held = some record := owns
        exact .inl ⟨other, by simp [holders, held], by simp [held]⟩
    | queue => exact .inr (List.mem_of_mem_drop owns)
    | worker => exact .inr (took record owns)
  have size : (state.pool poolSize).toFinset.card = poolSize := by
    rw [List.toFinset_card_of_nodup (pool_nodup state poolSize)]
    simp [pool, Nat.ne_of_gt exhausted.1]
  have held : (holders.biUnion fun other => (state.clients other).held.toFinset).card ≤
      holders.card := by
    refine (Finset.card_biUnion_le_card_mul _ _ 1 fun other _ => ?_).trans (by simp)
    cases (state.clients other).held <;> simp
  have bound := (Finset.card_le_card covered).trans (Finset.card_union_le _ _)
  have queued := List.toFinset_card_le (queuedRecords trace)
  rw [size] at bound
  rw [queuedRecords_length] at queued
  -- the thread in `try_pop` is in a call too
  have exclusive : countIn busy (fun client => client.held.isSome) state.clients +
      countIn busy (fun client => CallStage.isAccepted client.call) state.clients + 1 ≤ busy.card := by
    have inside : thread ∈ busy :=
      Finset.mem_filter.mpr ⟨Finset.mem_univ _, by rw [here]; rfl⟩
    refine countIn_exclusive inside ?_
      (by simp [here, ClientPc.held, ClientPc.call, CallStage.isAccepted])
    intro client holds
    cases client with
    | push push => cases push <;> simp_all [ClientPc.held, PushPc.held, ClientPc.call,
        CallStage.isAccepted]
    | _ => simp_all [ClientPc.held, ClientPc.call, CallStage.isAccepted]
  have holding : holders.card ≤ countIn busy (fun client => client.held.isSome) state.clients := by
    refine Finset.card_le_card fun other holds => ?_
    have held : (state.clients other).held.isSome = true := by simpa [holders] using holds
    refine Finset.mem_filter.mpr ⟨Finset.mem_filter.mpr ⟨Finset.mem_univ _, ?_⟩, held⟩
    cases client : state.clients other with
    | push push => cases push <;> rfl
    | _ => simp_all [ClientPc.held, ClientPc.call]
  have accepted : countWhere CallStage.isAccepted (state.callView trace).stage ≤
      countIn busy (fun client => CallStage.isAccepted client.call) state.clients := by
    refine Finset.card_le_card fun other counts => ?_
    have stage : CallStage.isAccepted (state.clients other).call = true :=
      (Finset.mem_filter.mp counts).2
    refine Finset.mem_filter.mpr ⟨Finset.mem_filter.mpr ⟨Finset.mem_univ _, ?_⟩, stage⟩
    cases call : (state.clients other).call <;> simp_all [CallStage.isAccepted]
  have total : (calledEnvelopes trace).length = (enqueuedEnvelopes trace).length +
      (droppedEnvelopes trace).length + busy.card := calls.calls.total
  have uncounted : (queuedEnvelopes trace).length = (enqueuedEnvelopes trace).length +
      countWhere CallStage.isAccepted (state.callView trace).stage := calls.calls.uncounted
  omega

/-! Runs without a `shutdown`. -/

structure OpenOk [Fintype Thread] (poolSize : Nat) (trace : List (EngineEvent Thread))
    (state : AtomicEngine Thread) : Prop where
  late : LateOk poolSize trace state
  calls : CallsOk trace state
  took : TookQueued trace state
  upright : Upright state
  early : trace.any EngineEvent.isShutdownCalled = false

theorem OpenOk.step [Fintype Thread] (ok : OpenOk poolSize trace state)
    {action : EngineAction Thread} (permitted : noShutdown trace state action)
    (moved : Move poolSize state action next events) : OpenOk poolSize (trace ++ events) next := by
  refine ⟨ok.late.step (noShutdown_late permitted ok.early) moved, ok.calls.step moved, ?_, ?_, ?_⟩
  · cases moved with
    | enqueue here | shutdown here => exact ok.took.silent rfl
    | client moved => exact ok.took.client ok.late.memory moved
    | worker moved => exact ok.took.worker ok.late.memory moved
  · cases moved with
    | shutdown here => exact permitted.elim
    | @enqueue thread here =>
        intro up
        refine (ok.upright up).imp_right fun ⟨other, allocating⟩ => ⟨other, ?_⟩
        have different : other ≠ thread := by
          rintro rfl
          simp [here] at allocating
        simpa [goto, different] using allocating
    | client moved => exact ok.upright.client moved
    | worker moved => exact ok.upright.worker moved
  · cases moved with
    | shutdown here => exact permitted.elim
    | enqueue here => rw [any_silent rfl, ok.early]
    | client moved => rw [any_silent moved.not_called, ok.early]
    | worker moved => rw [any_silent moved.not_called, ok.early]

theorem open_ok [Fintype Thread]
    (reached : (engineMachine (atomicFreeList LogRecord) Thread poolSize).Reaches noShutdown
      trace state) : OpenOk poolSize trace state := by
  refine reached.invariant (OpenOk poolSize)
    ⟨⟨.initial, .initial, .initial, ?_⟩, .initial, ?_, ?_, rfl⟩ ?_
  · intro node
    simp [engineMachine, LogEngine.initial, MpscQueue.initial]
  · intro record owns
    simp [Owns, engineMachine, LogEngine.initial, WorkerPc.current, WorkerPc.recycling] at owns
  · intro up
    simp [engineMachine, LogEngine.initial] at up
  · intro trace state action next events ok permitted stepped
    exact ok.step permitted (step_move stepped).2

def MissedExhausted (poolSize : Nat) (trace : List (EngineEvent Thread))
    (envelope : Envelope Thread) : Prop :=
  ∃ before state,
    (engineMachine (atomicFreeList LogRecord) Thread poolSize).Reaches patient before state ∧
    before <+: trace ∧ state.clients envelope.thread = .acquire () ∧
    state.envelope envelope.thread = envelope ∧ state.stack = [] ∧ Exhausted poolSize before state

/-- Every call that is counted in `dropped_`, or is about to be, missed an exhausted pool. -/
structure DropsOk (poolSize : Nat) (trace : List (EngineEvent Thread))
    (state : AtomicEngine Thread) : Prop where
  missed : ∀ thread, state.clients thread = .countDropped →
    MissedExhausted poolSize trace (state.envelope thread)
  dropped : ∀ envelope, .dropped envelope ∈ trace → MissedExhausted poolSize trace envelope

theorem MissedExhausted.later {envelope : Envelope Thread}
    (missed : MissedExhausted poolSize trace envelope) (events : List (EngineEvent Thread)) :
    MissedExhausted poolSize (trace ++ events) envelope := by
  obtain ⟨before, state, reached, earlier, rest⟩ := missed
  exact ⟨before, state, reached, earlier.trans (List.prefix_append ..), rest⟩

theorem DropsOk.frame (ok : DropsOk poolSize trace state)
    (clients : ∀ thread, next.clients thread = .countDropped →
      state.clients thread = .countDropped ∧ next.envelope thread = state.envelope thread)
    (dropped : ∀ envelope, .dropped envelope ∉ events) :
    DropsOk poolSize (trace ++ events) next := by
  constructor
  · intro thread here
    obtain ⟨before, same⟩ := clients thread here
    rw [same]
    exact (ok.missed thread before).later events
  · intro envelope inside
    rcases List.mem_append.mp inside with before | now
    · exact (ok.dropped envelope before).later events
    · exact absurd now (dropped envelope)

theorem ClientMove.envelope_same (moved : ClientMove poolSize state thread next events)
    (other : Thread) (different : other ≠ thread) :
    next.envelope other = state.envelope other := by
  cases moved with
  | drops | counts => simp [envelope, finish, different]
  | _ => rfl

theorem DropsOk.client (ok : DropsOk poolSize trace state) (late : LateOk poolSize trace state)
    (upright : Upright state) {spurious : Bool}
    (reached : (engineMachine (atomicFreeList LogRecord) Thread poolSize).Reaches patient trace state)
    (permitted : patient trace state (.client thread spurious))
    (moved : ClientMove poolSize state thread next events) :
    DropsOk poolSize (trace ++ events) next := by
  -- the other threads stay where they are
  have others : next.clients thread ≠ .countDropped → ∀ other,
      next.clients other = .countDropped →
        state.clients other = .countDropped ∧ next.envelope other = state.envelope other := by
    intro notMine other here
    have different : other ≠ thread := by
      rintro rfl
      exact notMine here
    exact ⟨by rw [← moved.others_same other different, here], moved.envelope_same other different⟩
  cases moved with
  | @misses pc _ freelist here ran =>
      obtain ⟨rfl, missed⟩ := atomic_pop ran
      have empty : state.stack = [] := List.head?_eq_none_iff.mp (Sum.inr.inj missed).symm
      have filled := permitted (by rw [here]; rfl) empty
      have exhausted := (late.miss_exhausted upright here empty).mpr filled
      rw [List.append_nil]
      constructor
      · intro other waits
        by_cases same : other = thread
        · subst same
          exact ⟨trace, state, reached, List.prefix_refl _, here, rfl, empty, exhausted⟩
        · exact ok.missed other (by simpa [goto, same] using waits)
      · exact ok.dropped
  | drops here =>
      constructor
      · intro other waits
        have different : other ≠ thread := by
          rintro rfl
          simp [finish] at waits
        have same : envelope ({ state with dropped := state.dropped + 1 }.finish thread) other =
            state.envelope other := by
          simp [envelope, finish, different]
        rw [same]
        exact (ok.missed other (by simpa [finish, different] using waits)).later _
      · intro envelope inside
        rcases List.mem_append.mp inside with before | now
        · exact (ok.dropped envelope before).later _
        · obtain rfl : envelope = state.envelope thread := by simpa using now
          exact (ok.missed thread here).later _
  | terminates here => exact ok.frame (fun other waits => ⟨waits, rfl⟩) (by simp)
  | allocates here | filled here =>
      refine ok.frame (others ?_) (by simp)
      simp only [goto, Function.update_self, fillFrom]
      split <;> simp
  | _ => exact ok.frame (others (by simp [goto, finish])) (by simp)

theorem DropsOk.step (ok : DropsOk poolSize trace state) (late : LateOk poolSize trace state)
    (upright : Upright state) {action : EngineAction Thread}
    (reached : (engineMachine (atomicFreeList LogRecord) Thread poolSize).Reaches patient trace state)
    (permitted : patient trace state action) (moved : Move poolSize state action next events) :
    DropsOk poolSize (trace ++ events) next := by
  cases moved with
  | shutdown here => exact permitted.elim
  | @enqueue thread here =>
      refine ok.frame (fun other waits => ?_) (by simp)
      have different : other ≠ thread := by
        rintro rfl
        simp [goto] at waits
      exact ⟨by simpa [goto, different] using waits, rfl⟩
  | client moved => exact ok.client late upright reached permitted moved
  | @worker id _ _ _ moved =>
      refine ok.frame (fun other waits => ?_) ?_
      · rw [moved.clients_same] at waits
        refine ⟨waits, ?_⟩
        cases moved <;> rfl
      · cases moved <;> simp

theorem drops_ok [Fintype Thread]
    (reached : (engineMachine (atomicFreeList LogRecord) Thread poolSize).Reaches patient
      trace state) : DropsOk poolSize trace state := by
  have both := reached.invariant (fun trace state =>
    (engineMachine (atomicFreeList LogRecord) Thread poolSize).Reaches patient trace state ∧
      DropsOk poolSize trace state) ⟨.nil, ?_⟩ ?_
  · exact both.2
  · constructor
    · intro thread here
      simp [engineMachine, LogEngine.initial] at here
    · intro envelope inside
      simp at inside
  · rintro trace state action next events ⟨before, ok⟩ permitted stepped
    have run := open_ok (before.mono fun _ _ _ allowed => patient_noShutdown allowed)
    refine ⟨.snoc before permitted stepped, ?_⟩
    exact ok.step run.late run.upright before permitted (step_move stepped).2

omit [DecidableEq Thread] in
theorem calledEnvelopes_prefix {before : List (EngineEvent Thread)} (earlier : before <+: trace) :
    (calledEnvelopes before).length ≤ (calledEnvelopes trace).length :=
  (earlier.filterMap _).length_le

/-- Without a `shutdown`, a `try_pop` that finds the free list empty finds the pool exhausted
just when nobody is still filling it. When none runs before that, every dropped call missed
an exhausted pool, and with at most as many calls as records none is dropped. -/
theorem drops_when_exhausted [Fintype Thread]
    (reached : (engineMachine (atomicFreeList LogRecord) Thread poolSize).Reaches noShutdown
      trace state) :
    (∀ thread, state.clients thread = .acquire () → state.stack = [] →
      (Exhausted poolSize trace state ↔ ∀ other, (state.clients other).filling = false)) ∧
    ((engineMachine (atomicFreeList LogRecord) Thread poolSize).Reaches patient trace state →
      (∀ envelope, .dropped envelope ∈ trace → MissedExhausted poolSize trace envelope) ∧
      ((calledEnvelopes trace).length ≤ poolSize →
        (∀ envelope, .dropped envelope ∉ trace) ∧ state.dropped = 0)) := by
  have ok := open_ok reached
  refine ⟨fun thread here empty => ok.late.miss_exhausted ok.upright here empty, fun patiently => ?_⟩
  have drops := drops_ok patiently
  refine ⟨drops.dropped, fun few => ?_⟩
  have none : ∀ envelope, .dropped envelope ∉ trace := by
    intro envelope inside
    obtain ⟨before, state, reached, earlier, here, _, _, exhausted⟩ := drops.dropped envelope inside
    have earlierOk := open_ok (reached.mono fun _ _ _ allowed => patient_noShutdown allowed)
    have many := exhausted.calls earlierOk.took earlierOk.calls here
    have later := calledEnvelopes_prefix earlier
    omega
  refine ⟨none, ?_⟩
  have empty : droppedEnvelopes trace = [] :=
    List.eq_nil_iff_forall_not_mem.mpr fun envelope inside =>
      none envelope (mem_droppedEnvelopes.mp inside)
  rw [ok.calls.dropped, empty]
  rfl

instance (trace : List (EngineEvent Thread)) (state : AtomicEngine Thread)
    (action : EngineAction Thread) : Decidable (noShutdown trace state action) :=
  match action with
  | .shutdown _ => .isFalse id
  | .enqueue _ | .client _ _ | .worker _ _ => .isTrue trivial

instance [Fintype Thread] (trace : List (EngineEvent Thread)) (state : AtomicEngine Thread)
    (action : EngineAction Thread) : Decidable (patient trace state action) :=
  match action with
  | .shutdown _ => .isFalse id
  | .enqueue _ | .worker _ _ => .isTrue trivial
  | .client thread _ => inferInstanceAs (Decidable ((state.clients thread).acquiring = true →
      state.stack = [] → ∀ other, (state.clients other).filling = false))

def missSchedule : List (EngineAction Bool) :=
  [EngineAction.enqueue false, .enqueue true] ++
    List.replicate 6 (EngineAction.client false false) ++
    List.replicate 3 (EngineAction.client true false)

theorem missSchedule_runs :
    ((engineMachine (atomicFreeList LogRecord) Bool 1).exec patient []
      (engineMachine (atomicFreeList LogRecord) Bool 1).start missSchedule).isSome = true := by
  decide +kernel

def fittingSchedule : List (EngineAction Bool) :=
  [EngineAction.enqueue false, .enqueue true] ++
    List.replicate 12 (EngineAction.client false false) ++
    List.replicate 7 (EngineAction.client true false)

theorem fittingSchedule_runs :
    ((engineMachine (atomicFreeList LogRecord) Bool 2).exec patient []
      (engineMachine (atomicFreeList LogRecord) Bool 2).start fittingSchedule).isSome = true := by
  decide +kernel

theorem drops_when_exhausted_sample :
    let missed := (Option.get _ missSchedule_runs).1
    let fitting := Option.get _ fittingSchedule_runs
    .dropped ⟨true, 0⟩ ∈ missed ∧ MissedExhausted 1 missed (⟨true, 0⟩ : Envelope Bool) ∧
      fitting.2.enqueued = 2 ∧ ∀ envelope, .dropped envelope ∉ fitting.1 := by
  intro missed fitting
  have dropped : .dropped ⟨true, 0⟩ ∈ missed := by decide +kernel
  have few : (calledEnvelopes fitting.1).length ≤ 2 := by decide +kernel
  have missing := EventMachine.reaches_of_isSome missSchedule_runs
  have fits := EventMachine.reaches_of_isSome fittingSchedule_runs
  have facts := drops_when_exhausted (missing.mono fun _ _ _ allowed => patient_noShutdown allowed)
  have fitFacts := drops_when_exhausted (fits.mono fun _ _ _ allowed => patient_noShutdown allowed)
  exact ⟨dropped, (facts.2 missing).1 _ dropped, by decide +kernel, ((fitFacts.2 fits).2 few).1⟩

def earlySchedule : List (EngineAction Bool) :=
  [EngineAction.enqueue false, .enqueue true, .client false false, .client true false]

theorem earlySchedule_runs :
    ((engineMachine (atomicFreeList LogRecord) Bool kPoolSize).exec noShutdown []
      (engineMachine (atomicFreeList LogRecord) Bool kPoolSize).start earlySchedule).isSome =
        true := by
  decide +kernel

theorem droppedSchedule_runs :
    ((engineMachine (atomicFreeList LogRecord) Bool kPoolSize).exec noShutdown []
      (engineMachine (atomicFreeList LogRecord) Bool kPoolSize).start
        (earlySchedule ++ [.client true false, .client true false])).isSome = true := by
  decide +kernel

/-- Two calls on a pool of 1024 records, and one of them is dropped: its `try_pop` runs before
the other has filled the pool. -/
theorem dropped_while_filling :
    (∃ trace state, (engineMachine (atomicFreeList LogRecord) Bool kPoolSize).Reaches noShutdown
      trace state ∧ state.clients true = .acquire () ∧ state.stack = [] ∧
        ¬Exhausted kPoolSize trace state) ∧
    ∃ trace state, (engineMachine (atomicFreeList LogRecord) Bool kPoolSize).Reaches noShutdown
      trace state ∧ .dropped ⟨true, 0⟩ ∈ trace ∧ state.dropped = 1 ∧ state.generation = 0 ∧
        (calledEnvelopes trace).length ≤ kPoolSize := by
  refine ⟨⟨_, _, EventMachine.reaches_of_isSome earlySchedule_runs, by rfl, by decide +kernel, ?_⟩,
    ⟨_, _, EventMachine.reaches_of_isSome droppedSchedule_runs, by decide +kernel, by decide +kernel,
      by decide +kernel, by decide +kernel⟩⟩
  rintro ⟨allocated, _⟩
  exact absurd allocated (by decide +kernel)

end LogEngine

end MyServer
